import CleanSlate.Store.Verify.Session

/-!
# Power loss during a commit

A power loss keeps any of the block writes the cache held. What is mounted afterwards is what was
committed or what was staged, as far as checksums tell payloads apart: the sum of the bytes accepts
a payload of which only some blocks were written whenever the old bytes sum to the same.
-/

namespace CleanSlate.Store

open Lib List ObjectStore Device

variable {g : BlockGeometry} {store : ObjectStore g} {superblock : Superblock}

/-! ## Stores on the medium -/

/-- A store whose last commit is on the medium, with nothing in the cache. -/
structure Flushed (store : ObjectStore g) (committed : List StoredObject) : Prop where
  pending : store.device.pending = []
  mounted : ObjectStore.mount (Device.ofImage (g := g) store.device.durable) =
    .ok ⟨.ofImage store.device.durable, store.generation, store.activeSlot, committed⟩
  staged : Staged store.objects

/-- The medium alone decides what is mounted from an empty cache. -/
theorem Flushed.of_mounts
    (hus : Usable g) (hpn : store.device.pending = []) (hst : Staged store.objects)
    (hgn : store.generation = superblock.generation)
    (h : Mounts g store.device.visible store.activeSlot superblock) :
    Flushed store (contents g store.device.visible superblock) := by
  have hvs : store.device.visible = store.device.durable := by
    rw [visible, hpn]
    rfl
  rw [hvs] at h ⊢
  refine ⟨hpn, ?_, hst⟩
  have hmn : mount (ofImage store.device.durable) = _ := Mounts.mount hus rfl h
  rw [hmn, hgn]
  rfl

theorem Flushed.format {device : Device g} (h : format device = .ok store) : Flushed store [] := by
  have hmn := format_mounts h
  obtain ⟨hus, device', rfl, hpn, -⟩ := format_ok h
  exact .of_mounts hus hpn ⟨.nil, Nat.zero_le _⟩ rfl hmn

theorem Flushed.commit {committed : ObjectStore g}
    (hop : Open store superblock) (h : store.commit = (.ok (), committed)) :
    Flushed committed committed.objects := by
  have hdn := hop.commit
  rw [h] at hdn
  cases hdn with
  | done _ pending _ _ new mounts staged =>
    have hfl := Flushed.of_mounts new.usable pending new.staged new.generation mounts
    rw [show contents g _ _ = store.objects from staged] at hfl
    exact hfl

theorem Flushed.writeObject {committed : List StoredObject}
    (h : Flushed store committed) (id : UInt64) (name : String) (data : List UInt8) :
    Flushed (store.writeObject id name data).2 committed := by
  rcases writeObject_cases store h.staged id name data with ⟨error, heq⟩ | ⟨-, -, objects, hwr, heq⟩
  · rw [heq]
    exact h
  · rw [heq]
    exact ⟨h.pending, h.mounted, hwr.staged h.staged⟩

/-- What is mounted is what was committed, or what was staged as the next generation. -/
def Recovers (store : ObjectStore g) (committed : List StoredObject) (image : Medium UInt8) : Prop :=
  ∃ mounted, ObjectStore.mount (Device.ofImage (g := g) image) = .ok mounted ∧
    (mounted.generation = store.generation ∧ mounted.objects = committed ∨
      mounted.generation = store.generation + 1 ∧ mounted.objects = store.objects)

/-- Whatever fails in a commit and whatever the power loss then keeps of its writes. -/
def CrashConsistent (store : ObjectStore g) (committed : List StoredObject) : Prop :=
  ∀ faults image, (store.withFaults faults).commit.2.device.CrashImage image →
    Recovers store committed image

/-! ## What goes wrong -/

/-- Every payload has its checksum, and yet one is not what was staged. -/
def Torn (g : BlockGeometry) (image : Medium UInt8) (layouts : List ObjectLayout) : Prop :=
  (∀ layout ∈ layouts, Sound g image layout) ∧
    ∃ layout ∈ layouts, payload g image layout ≠ layout.data

/-- The superblock that the other slot had before is mounted with what was written under it. -/
def Revived (store : ObjectStore g) (committed : List StoredObject) (image : Medium UInt8) : Prop :=
  ∃ stale, Decodes g store.device.durable store.nextSlot stale ∧ Supersedes store stale ∧
    Intact g image stale ∧
    ¬(stale.generation = store.generation ∧ contents g image stale = committed ∨
      stale.generation = store.generation + 1 ∧ contents g image stale = store.objects)

/-- Some of the payload writes of the commit to come put the medium in one of these states. -/
def Exposed (store : ObjectStore g) (committed : List StoredObject) : Prop :=
  g.readOnly = false ∧ store.generation + 1 < 2 ^ 64 ∧
    ∃ layouts kept, buildObjectLayout g store.nextSlot store.objects = .ok layouts ∧
      kept.Sublist (dataWrites g layouts) ∧
      (Torn g (store.device.durable.apply g.logicalBlockSize kept) layouts ∨
        Revived store committed (store.device.durable.apply g.logicalBlockSize kept))

variable {committed : List StoredObject} {image : Medium UInt8}

section Recovers

theorem Mounts.recovers_iff (hus : Usable g) {slot : Nat} (h : Mounts g image slot superblock) :
    Recovers store committed image ↔
      (superblock.generation = store.generation ∧ contents g image superblock = committed ∨
        superblock.generation = store.generation + 1 ∧
          contents g image superblock = store.objects) := by
  have hmn : ObjectStore.mount (ofImage image) = _ := Mounts.mount hus rfl h
  constructor
  · rintro ⟨mounted, hmt, hcs⟩
    rw [hmn] at hmt
    cases hmt
    exact hcs
  · intro hcs
    exact ⟨_, hmn, hcs⟩

theorem Flushed.mounts (h : Flushed store committed) :
    ∃ superblock, Open store superblock ∧ store.device.visible = store.device.durable ∧
      contents g store.device.durable superblock = committed ∧
      Mounts g store.device.durable store.activeSlot superblock := by
  have hvs : store.device.visible = store.device.durable := by
    rw [visible, h.pending]
    rfl
  have hus : Usable g := by
    obtain ⟨_, hop, -⟩ := mount_open rfl h.mounted
    exact hop.usable
  obtain ⟨superblock, hmn, hst⟩ := (mount_ok_iff hus rfl).1 h.mounted
  injection hst with _ hgn _ hob
  refine ⟨superblock, ⟨hus, hmn.inRange, ?_, ?_, hgn, h.staged⟩, hvs, hob.symm, hmn⟩
  · rw [hvs]
    exact hmn.decodes
  · rw [hvs]
    exact hmn.intact

end Recovers

variable {layouts : List ObjectLayout} {kept : List (BlockWrite UInt8)}

section Crash

section

variable (h : Flushed store committed)
include h

/-- Whatever is written to the other slot, the last commit can be mounted, or that slot is. -/
theorem Flushed.mounts_apply (hkp : Confined g store.nextSlot kept) :
    let image := store.device.durable.apply g.logicalBlockSize kept
    ∃ superblock, store.generation = superblock.generation ∧ contents g image superblock = committed ∧
      (Mounts g image store.activeSlot superblock ∨
        ∃ stale, Mounts g image store.nextSlot stale ∧ Supersedes store stale) := by
  intro image
  obtain ⟨superblock, hop, -, hcn, hmn⟩ := h.mounts
  have hsl := hop.slot
  have hnx := store.nextSlot_lt
  have hne := hop.nextSlot_ne
  have htb := hmn.decodes.table hsl
  have hdc : Decodes g image store.activeSlot superblock :=
    (hkp.decodes_iff hsl hnx hne).2 hmn.decodes
  have hin : Intact g image superblock := (hkp.intact_iff hsl hnx hne htb).2 hmn.intact
  refine ⟨superblock, hop.generation, (hkp.contents_eq hsl hnx hne htb).trans hcn, ?_⟩
  rcases mounts_cases hsl hdc hin with hmt | ⟨stale, hmt, hnw⟩
  · exact .inl hmt
  · rw [← nextSlot_eq hsl] at hmt hnw
    refine .inr ⟨stale, hmt, ?_⟩
    rw [Supersedes, hop.generation]
    exact hnw

section

variable (hlayout : buildObjectLayout g store.nextSlot store.objects = .ok layouts)
include hlayout

theorem recovers_data_iff (hkp : kept.Sublist (dataWrites g layouts)) :
    Recovers store committed (store.device.durable.apply g.logicalBlockSize kept) ↔
      ¬Revived store committed (store.device.durable.apply g.logicalBlockSize kept) := by
  have hcn := cut_confined hlayout (.inl hkp)
  obtain ⟨stop, hst, hld⟩ := buildObjectLayout_ok hlayout
  have hsl : ∀ {stale}, Decodes g (store.device.durable.apply g.logicalBlockSize kept)
      store.nextSlot stale ↔ Decodes g store.device.durable store.nextSlot stale :=
    decodes_apply_iff (fun w hw => (hcn w hw).2) fun w hw =>
      dataWrites_lba store.nextSlot_lt (hld.placed le_rfl hst) w (hkp.subset hw)
  obtain ⟨_, hop, -⟩ := h.mounts
  obtain ⟨superblock, hgn, hct, hmn | ⟨stale, hmn, hnw⟩⟩ := h.mounts_apply hcn
  · -- no stale superblock is in order
    have hnn : ¬Revived store committed (store.device.durable.apply g.logicalBlockSize kept) := by
      rintro ⟨stale, hdc, hnw, hin, -⟩
      refine hmn.newest stale ?_ ?_ hin
      · rw [← nextSlot_eq hop.slot]
        exact hsl.2 hdc
      · rw [← nextSlot_eq hop.slot, Newer, ← hgn]
        exact hnw
    exact iff_of_true ((hmn.recovers_iff hop.usable).2 (.inl ⟨hgn.symm, hct⟩)) hnn
  · rw [hmn.recovers_iff hop.usable]
    constructor
    · rintro hcs ⟨stale', hdc, -, -, hot⟩
      rw [(hsl.2 hdc).unique hmn.decodes] at hot
      exact hot hcs
    · intro hnn
      by_contra hot
      exact hnn ⟨stale, hsl.1 hmn.decodes, hnw, hmn.intact, hot⟩

/-- Once it is written, the superblock of the commit is mounted if every payload has its checksum,
and those are the payloads there were without it. -/
theorem Flushed.mounts_super
    (hgn : store.generation + 1 < 2 ^ 64) (hkp : kept.Sublist (dataWrites g layouts)) :
    let image := store.device.durable.apply g.logicalBlockSize kept
    let image' := store.device.durable.apply g.logicalBlockSize (kept ++
      superblockWrites g store.nextSlot (nextSuperblock store.generation layouts))
    Decodes g image' store.nextSlot (nextSuperblock store.generation layouts).stripped ∧
      (∀ layout ∈ layouts, payload g image' layout = payload g image layout) ∧
      ((∀ layout ∈ layouts, Sound g image' layout) →
        Mounts g image' store.nextSlot (nextSuperblock store.generation layouts).stripped) := by
  intro image image'
  obtain ⟨_, hop, hvs, -⟩ := h.mounts
  obtain ⟨stop, hst, hld⟩ := buildObjectLayout_ok hlayout
  have hnx := store.nextSlot_lt
  have hap : image' = image.apply g.logicalBlockSize
      (superblockWrites g store.nextSlot (nextSuperblock store.generation layouts)) :=
    Medium.apply_append _ _ _
  have hdc : Decodes g image' store.nextSlot
      (nextSuperblock store.generation layouts).stripped := by
    rw [hap]
    exact decodes_superblockWrites hop.usable (superblock_encodable hop.staged hlayout hgn)
      (hld.validateLayouts hop.staged le_rfl hst (arena_lt hnx)) image
  refine ⟨hdc, fun layout hmem => ?_, fun hsn => ?_⟩
  · rw [hap]
    exact payload_superblockWrites hnx (hld.placed le_rfl hst layout hmem) image
  · refine ⟨hnx, hdc, intact_nextSuperblock_iff.2 hsn, fun superblock hot hnw => ?_⟩
    have hcn := (plan_confined hlayout (nextSuperblock store.generation layouts)).sublist
      (hkp.append_right _)
    have hbh := @Open.behind _ _ _ hop _ hcn superblock
    rw [hvs] at hbh
    have hgn := hbh hot
    simp only [Newer, nextSuperblock, Superblock.stripped] at hnw
    omega

theorem recovers_super_iff
    (hgn : store.generation + 1 < 2 ^ 64) (hkp : kept.Sublist (dataWrites g layouts)) :
    Recovers store committed (store.device.durable.apply g.logicalBlockSize (kept ++
        superblockWrites g store.nextSlot (nextSuperblock store.generation layouts))) ↔
      ¬Torn g (store.device.durable.apply g.logicalBlockSize kept) layouts := by
  obtain ⟨_, hop, -⟩ := h.mounts
  obtain ⟨stop, hst, hld⟩ := buildObjectLayout_ok hlayout
  obtain ⟨hdc, hpy, hnew⟩ := h.mounts_super hlayout hgn hkp
  have hmn := h.mounts_apply ((plan_confined hlayout
    (nextSuperblock store.generation layouts)).sublist (hkp.append_right _))
  have htr : Torn g (store.device.durable.apply g.logicalBlockSize kept) layouts ↔
      Torn g (store.device.durable.apply g.logicalBlockSize (kept ++
        superblockWrites g store.nextSlot (nextSuperblock store.generation layouts))) layouts := by
    refine and_congr (forall₂_congr fun layout hmem => ?_)
      (exists_congr fun layout => and_congr_right fun hmem => ?_)
    · rw [Sound, Sound, hpy layout hmem]
    · rw [hpy layout hmem]
  rw [htr]
  generalize store.device.durable.apply g.logicalBlockSize (kept ++
    superblockWrites g store.nextSlot (nextSuperblock store.generation layouts)) = image at *
  by_cases hsn : ∀ layout ∈ layouts, Sound g image layout
  · have hlt : (nextSuperblock store.generation layouts).stripped.generation =
        store.generation + 1 := rfl
    rw [(hnew hsn).recovers_iff hop.usable, contents_nextSuperblock_iff hld]
    constructor
    · rintro (⟨hsm, -⟩ | ⟨-, hdt⟩) ⟨-, layout, hmem, hot⟩
      · omega
      · exact hot (hdt layout hmem)
    · intro hwh
      refine .inr ⟨rfl, fun layout hmem => ?_⟩
      by_contra hot
      exact hwh ⟨hsn, layout, hmem, hot⟩
  · obtain ⟨superblock, hgn, hcn, hac | ⟨stale, hsl, -⟩⟩ := hmn
    · exact iff_of_true ((hac.recovers_iff hop.usable).2
        (.inl ⟨hgn.symm, hcn⟩)) fun htr => hsn htr.1
    · have hin := hsl.intact
      rw [hsl.decodes.unique hdc] at hin
      exact absurd (intact_nextSuperblock_iff.1 hin) hsn

end

/-- What a power loss during the commit can leave. -/
theorem crashImage_cases (faults : Faults)
    (hcr : (store.withFaults faults).commit.2.device.CrashImage image) :
    image = store.device.durable ∨
    g.readOnly = false ∧ store.generation + 1 < 2 ^ 64 ∧ ∃ layouts kept,
      buildObjectLayout g store.nextSlot store.objects = .ok layouts ∧
      kept.Sublist (dataWrites g layouts) ∧
      (image = store.device.durable.apply g.logicalBlockSize kept ∨
        image = store.device.durable.apply g.logicalBlockSize (kept ++
          superblockWrites g store.nextSlot (nextSuperblock store.generation layouts))) := by
  obtain ⟨written, hwr, rfl⟩ := hcr
  have hpn := h.pending
  cases hreadOnly : g.readOnly with
  | true =>
    left
    rw [commit_readOnly hreadOnly] at hwr ⊢
    change written.Sublist store.device.pending at hwr
    rw [hpn, sublist_nil] at hwr
    rw [hwr]
    rfl
  | false =>
    have hot := commit_outcome (store.withFaults faults)
    generalize (store.withFaults faults).commit = result at hot hwr ⊢
    cases hot with
    | rejected =>
      left
      change written.Sublist store.device.pending at hwr
      rw [hpn, sublist_nil] at hwr
      rw [hwr]
      rfl
    | @failed _ device layouts issued layout generation issues cut =>
      have his : device.pending = issued := by
        rw [issues.pending]
        change store.device.pending ++ issued = issued
        rw [hpn, nil_append]
      have hdr : device.durable = store.device.durable := issues.durable
      simp only [his] at hwr
      refine .inr ⟨rfl, generation, layouts, ?_⟩
      simp only [hdr]
      rcases cut with hdt | rfl
      · exact ⟨written, layout, hwr.trans hdt, .inl rfl⟩
      · obtain ⟨kept, last, rfl, hkp, hls⟩ := sublist_append_iff.1 hwr
        rcases sublist_superblockWrites hls with rfl | rfl
        · exact ⟨kept, layout, hkp, .inl (by rw [append_nil])⟩
        · exact ⟨kept, layout, hkp, .inr rfl⟩
    | @committed device layouts layout generation durable pending _ =>
      simp only [pending, sublist_nil] at hwr
      have hvs : (store.withFaults faults).device.visible = store.device.durable := by
        obtain ⟨-, -, hvs, -⟩ := h.mounts
        exact hvs
      refine .inr ⟨rfl, generation, layouts, dataWrites g layouts, layout, List.Sublist.refl _,
        Or.inr ?_⟩
      rw [hwr, durable, hvs]
      rfl

end

/-- Only the flush fails. -/
def Faults.flushOnly : Faults := ⟨[], [], [some (.transport .deviceFault)]⟩

section

variable (h : Flushed store committed) (hwritable : g.readOnly = false)
  (hlayout : buildObjectLayout g store.nextSlot store.objects = .ok layouts)
  (hgeneration : store.generation + 1 < 2 ^ 64)
include h hwritable hlayout hgeneration

/-- After a failing flush all writes are in the cache, and the power loss may keep any of them. -/
theorem Flushed.crashImage {written : List (BlockWrite UInt8)}
    (hwr : written.Sublist (dataWrites g layouts ++
      superblockWrites g store.nextSlot (nextSuperblock store.generation layouts))) :
    (store.withFaults .flushOnly).commit.2.device.CrashImage
      (store.device.durable.apply g.logicalBlockSize written) := by
  obtain ⟨_, hop, -⟩ := h.mounts
  rw [commit_flush_fails hop.usable hwritable
    (show (store.withFaults .flushOnly).device.faults = _ from rfl) hop.staged hlayout hgeneration]
  exact ⟨written, hwr.trans (sublist_append_right _ _), rfl⟩

/-- If the payloads have their checksums with only these writes, they are mounted like that. -/
theorem Flushed.exposes (hkp : kept.Sublist (dataWrites g layouts)) (hsn : ∀ layout ∈ layouts,
      Sound g (store.device.durable.apply g.logicalBlockSize kept) layout) :
    ∃ image mounted, (store.withFaults .flushOnly).commit.2.device.CrashImage image ∧
      mount (ofImage (g := g) image) = .ok mounted ∧
      mounted.generation = store.generation + 1 ∧
      mounted.objects =
        layouts.map (loaded g (store.device.durable.apply g.logicalBlockSize kept)) := by
  obtain ⟨_, hop, -⟩ := h.mounts
  obtain ⟨-, hpy, hmn⟩ := h.mounts_super hlayout hgeneration hkp
  have hcr := h.crashImage hwritable hlayout hgeneration (hkp.append_right _)
  generalize store.device.durable.apply g.logicalBlockSize (kept ++
    superblockWrites g store.nextSlot (nextSuperblock store.generation layouts)) = image at *
  have hmt : mount (ofImage image) = _ := Mounts.mount hop.usable rfl (hmn fun layout hmem => by
      rw [Sound, hpy layout hmem]
      exact hsn layout hmem)
  refine ⟨image, _, hcr, hmt, rfl, ?_⟩
  change (layouts.map ObjectLayout.stripped).map (loaded g image) = _
  rw [map_map]
  refine map_congr_left fun layout hmem => ?_
  change (⟨layout.id, layout.name, payload g image layout⟩ : StoredObject) = _
  rw [hpy layout hmem]
  rfl

end

/-- **Crash consistency.** From a store on the medium, for any staged objects, any failure in the
commit and any power loss, what is mounted is what was committed or what was staged, exactly if no
part of the payload writes leaves a payload that differs from the staged one and has its checksum,
or a stale newer superblock in order. -/
theorem crash_consistent_iff (h : Flushed store committed) :
    CrashConsistent store committed ↔ ¬Exposed store committed := by
  constructor
  · rintro hcn ⟨hwritable, hgeneration, layouts, kept, hlayout, hkp, hex⟩
    rcases hex with htr | hrv
    · exact (recovers_super_iff h hlayout hgeneration hkp).1 (hcn _ _
        (h.crashImage hwritable hlayout hgeneration (hkp.append_right _))) htr
    · exact (recovers_data_iff h hlayout hkp).1 (hcn _ _ (h.crashImage hwritable hlayout
        hgeneration (hkp.trans (sublist_append_left _ _)))) hrv
  · intro hsf faults image hcr
    rcases crashImage_cases h faults hcr with rfl | ⟨hwritable, hgeneration, layouts, kept,
      hlayout, hkp, rfl | rfl⟩
    · exact ⟨_, h.mounted, .inl ⟨rfl, rfl⟩⟩
    · exact (recovers_data_iff h hlayout hkp).2 fun hrv =>
        hsf ⟨hwritable, hgeneration, layouts, kept, hlayout, hkp, .inr hrv⟩
    · exact (recovers_super_iff h hlayout hgeneration hkp).2 fun htr =>
        hsf ⟨hwritable, hgeneration, layouts, kept, hlayout, hkp, .inl htr⟩

end Crash

/-! ## A store of one object -/

variable {data : List UInt8}

section Formatted
variable (flushes : List (Option BlockIoError))

theorem withOne_flushed (h : data.length ≤ 1024) : Flushed (withOne flushes data) [] := by
  have hfl := (Flushed.format (format_blank flushes)).writeObject 1 "object" data
  have hrun : ((formatted flushes).writeObject 1 "object" data).2 = withOne flushes data :=
    run_formatted flushes h
  rwa [hrun] at hfl

theorem payload_withOne (object : StoredObject) :
    payload sixBlocks (withOne flushes data).device.durable (layoutOf sixBlocks 4 object) =
      replicate object.data.length 0 := by
  have hzr : payload sixBlocks (fun _ => 0) (layoutOf sixBlocks 4 object) =
      replicate object.data.length 0 := by
    simp [payload, Medium.peek, layoutOf, map_const']
  rw [← hzr]
  have hwr : ∀ w ∈ superblockWrites sixBlocks 0 ⟨0, 0, []⟩ ++
      superblockWrites sixBlocks 1 ⟨0, 0, []⟩, w.lba < 4 ∧ w.data.length ≤ 512 := by
    intro w hw
    rcases mem_append.1 hw with hw | hw
    case inl | inr =>
      have hwt := mem_blockWrites hw
      exact ⟨by omega, hwt.2.2⟩
  exact payload_apply_of_disjoint (le_objectBlocks _ _) (fun w hw => (hwr w hw).2)
    fun w hw => .inl (hwr w hw).1

end Formatted

/-- One byte: its block is written or it is not, and without it the sum is another. -/
theorem crash_consistent_one_byte : CrashConsistent (withOne [] [7]) [] := by
  refine (crash_consistent_iff (withOne_flushed [] (by decide))).2 ?_
  rintro ⟨-, -, layouts, kept, hlayout, hkp, htr | hrv⟩
  · obtain ⟨stop, -, hld⟩ := buildObjectLayout_ok hlayout
    rw [buildObjectLayout_withOne [] (by decide)] at hlayout
    cases hlayout
    obtain ⟨hsn, layout, hmem, hot⟩ := htr
    have hlen : (dataWrites sixBlocks [layoutOf sixBlocks 4 ⟨1, "object", [7]⟩]).length = 1 := rfl
    cases kept with
    | nil =>
      have hnn := hsn _ (mem_singleton_self _)
      rw [Medium.apply_nil, Sound, payload_withOne] at hnn
      revert hnn
      decide
    | cons w kept =>
      have hall := hkp.eq_of_length_le (by rw [length_cons]; omega)
      rw [hall] at hot
      exact hot (hld.payload _ layout hmem)
  · obtain ⟨stale, hdc, hnw, -⟩ := hrv
    have hem : Decodes sixBlocks (withOne [] [7]).device.durable 1 ⟨0, 0, []⟩ :=
      (format_decodes (format_blank [])).2
    rw [show stale = _ from hdc.unique hem] at hnw
    revert hnw
    unfold Supersedes
    decide

/-- The checksum passes over bytes 8 to 11: with only the superblock of the commit on the medium,
the object is mounted without its payload. -/
theorem crash_mounts_unwritten_payload :
    ∃ image mounted, Flushed (withOne [] [0, 0, 0, 0, 0, 0, 0, 0, 1, 2, 3, 4]) [] ∧
      ((withOne [] [0, 0, 0, 0, 0, 0, 0, 0, 1, 2, 3, 4]).withFaults
        .flushOnly).commit.2.device.CrashImage image ∧
      ObjectStore.mount (Device.ofImage (g := sixBlocks) image) = .ok mounted ∧
      mounted.generation = 1 ∧ mounted.objects = [⟨1, "object", List.replicate 12 0⟩] := by
  have hfl : Flushed (withOne [] [0, 0, 0, 0, 0, 0, 0, 0, 1, 2, 3, 4]) [] :=
    withOne_flushed [] (by decide)
  have hsn : ∀ layout ∈ [layoutOf sixBlocks 4 ⟨1, "object", [0, 0, 0, 0, 0, 0, 0, 0, 1, 2, 3, 4]⟩],
      Sound sixBlocks (Medium.apply 512 (withOne []
        [0, 0, 0, 0, 0, 0, 0, 0, 1, 2, 3, 4]).device.durable []) layout := by
    intro layout hmem
    rw [mem_singleton.1 hmem, Medium.apply_nil, Sound, payload_withOne]
    decide
  obtain ⟨image, mounted, hcr, hmn, hgeneration, hob⟩ := hfl.exposes rfl
    (buildObjectLayout_withOne [] (by decide)) (by decide) (nil_sublist _) hsn
  refine ⟨image, mounted, hfl, hcr, hmn, hgeneration, hob.trans ?_⟩
  rw [Medium.apply_nil, map_singleton, loaded, payload_withOne]
  rfl

end CleanSlate.Store
