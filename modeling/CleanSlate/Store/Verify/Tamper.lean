import CleanSlate.Store.Verify.Crash
import Mathlib.Data.List.Pairwise

/-!
# One altered byte

A byte of a stored payload that changes is noticed by a mount unless it is one of the four the
checksum passes over: those of the checksum field, at offsets 8 to 11 of a superblock, are passed
over in payloads too.
-/

namespace CleanSlate.Store

open Lib

variable {g : BlockGeometry} {slot' : Nat} {superblock' : Superblock}

theorem Placed.apart {slot : Nat} (hsl : slot < 2) (hsl' : slot' < 2) (hne : slot ≠ slot')
    {layout layout' : ObjectLayout} (h : Placed g (slotDataArena g slot) layout)
    (h' : Placed g (slotDataArena g slot') layout') : Apart layout layout' := by
  have hcs : slot = 0 ∧ slot' = 1 ∨ slot = 1 ∧ slot' = 0 := by omega
  have hfr := h.first
  have hls := h.last
  have hfr' := h'.first
  have hls' := h'.last
  rw [slotDataArena_fst] at hfr hfr'
  rw [slotDataArena_snd] at hls hls'
  unfold Apart
  rcases hcs with ⟨rfl, rfl⟩ | ⟨rfl, rfl⟩
  · omega
  · omega

instance : Std.Symm Apart where
  symm left right h := by
    unfold Apart at *
    omega

/-- The medium with byte `off` of the entry's payload changed. -/
def altered (g : BlockGeometry) (image : Medium UInt8) (layout : ObjectLayout) (off : Nat)
    (byte : UInt8) : Medium UInt8 :=
  image.poke (layout.startLba * g.logicalBlockSize + off) [byte]

variable {image : Medium UInt8} {slot off : Nat} {superblock : Superblock} {layout : ObjectLayout}
  {byte : UInt8}

section Altered

theorem altered_of_outside (hoff : off < layout.dataLen)
    (hlen : layout.dataLen ≤ layout.blockCount * g.logicalBlockSize) {i : Nat}
    (h : i < layout.startLba * g.logicalBlockSize ∨
      (layout.startLba + layout.blockCount) * g.logicalBlockSize ≤ i) :
    altered g image layout off byte i = image i := by
  rw [Nat.add_mul] at h
  refine Medium.poke_of_not_mem ?_
  rw [List.length_singleton]
  omega

theorem altered_decodes_iff (hpl : Placed g (slotDataArena g slot) layout)
    (hoff : off < layout.dataLen) (hsl' : slot' < 2) :
    Decodes g (altered g image layout off byte) slot' superblock' ↔
      Decodes g image slot' superblock' := by
  have hpk : (altered g image layout off byte).peek (slot' * g.logicalBlockSize)
      g.logicalBlockSize = image.peek (slot' * g.logicalBlockSize) g.logicalBlockSize := by
    refine Medium.peek_congr fun i _ hi => altered_of_outside hoff hpl.len (.inl ?_)
    have hfr := hpl.first
    rw [slotDataArena_fst] at hfr
    have hmul : (slot' + 1) * g.logicalBlockSize ≤ layout.startLba * g.logicalBlockSize :=
      Nat.mul_le_mul_right _ (by omega)
    rw [Nat.succ_mul] at hmul
    omega
  unfold Decodes
  rw [hpk]

theorem payload_altered (hoff : off < layout.dataLen) :
    payload g (altered g image layout off byte) layout = (payload g image layout).set off byte :=
  Medium.peek_poke_singleton hoff byte

theorem payload_altered_of_apart (hoff : off < layout.dataLen)
    (hlen : layout.dataLen ≤ layout.blockCount * g.logicalBlockSize) {other : ObjectLayout}
    (hlen' : other.dataLen ≤ other.blockCount * g.logicalBlockSize) (h : Apart layout other) :
    payload g (altered g image layout off byte) other = payload g image other := by
  refine Medium.peek_congr fun i hi hlt => altered_of_outside hoff hlen ?_
  rcases h with hzr | hzr | hbf | haf
  · rw [hzr] at hlen
    omega
  · rw [hzr] at hlen'
    omega
  · right
    exact Nat.le_trans (Nat.mul_le_mul_right _ hbf) hi
  · have hmul := Nat.mul_le_mul_right g.logicalBlockSize haf
    rw [Nat.add_mul] at hmul
    omega

theorem altered_intact_iff_of_ne (hsl : slot < 2)
    (hpl : Placed g (slotDataArena g slot) layout) (hoff : off < layout.dataLen)
    (hsl' : slot' < 2) (hne : slot ≠ slot') (htb : Table g slot' superblock'.objects) :
    Intact g (altered g image layout off byte) superblock' ↔ Intact g image superblock' := by
  refine forall₂_congr fun other hmem => ?_
  have hot := htb.placed other hmem
  rw [Sound, Sound, payload_altered_of_apart hoff hpl.len hot.len (hpl.apart hsl hsl' hne hot)]

/-- The slot itself stays in order exactly if the checksum passes over the byte. -/
theorem altered_intact_iff (htb : Table g slot superblock.objects)
    (hin : Intact g image superblock) (hmem : layout ∈ superblock.objects)
    (hoff : off < layout.dataLen) (hby : byte ≠ image (layout.startLba * g.logicalBlockSize + off)) :
    Intact g (altered g image layout off byte) superblock ↔ inChecksumRange off := by
  have hpl := htb.placed layout hmem
  have hlen := hpl.len
  have hbl : layout.blockCount ≠ 0 := by
    intro hzr
    rw [hzr] at hlen
    omega
  have hln : off < (payload g image layout).length := by
    rw [payload, Medium.length_peek]
    exact hoff
  have hold : (payload g image layout)[off] =
      image (layout.startLba * g.logicalBlockSize + off) := by
    simp [payload, Medium.peek]
  -- the altered payload has its checksum exactly if the sum is the same
  have hsl : Sound g (altered g image layout off byte) layout ↔ inChecksumRange off := by
    have hsum := (hin layout hmem).resolve_left hbl
    rw [← checksum_set_eq_iff hln (by rwa [hold]), hsum]
    unfold Sound
    rw [or_iff_right hbl, payload_altered hoff]
  rw [← hsl]
  constructor
  · intro h
    exact h layout hmem
  · intro h other hot
    by_cases heq : other = layout
    · rw [heq]
      exact h
    · have hap : Apart layout other := htb.apart.forall hmem hot (Ne.symm heq)
      rw [Sound, payload_altered_of_apart hoff hlen (htb.placed other hot).len hap]
      exact hin other hot

/-- The slot that was mounted still is, exactly if the checksum passes over the byte. -/
theorem Mounts.altered_iff (h : Mounts g image slot superblock)
    (hmem : layout ∈ superblock.objects) (hoff : off < layout.dataLen)
    (hby : byte ≠ image (layout.startLba * g.logicalBlockSize + off)) :
    Mounts g (altered g image layout off byte) slot superblock ↔ inChecksumRange off := by
  have hsl := h.inRange
  have htb := h.decodes.table hsl
  have hpl := htb.placed layout hmem
  rw [← altered_intact_iff htb h.intact hmem hoff hby]
  constructor
  · intro hmn
    exact hmn.intact
  · intro hin
    refine ⟨hsl, (altered_decodes_iff hpl hoff hsl).2 h.decodes, hin, ?_⟩
    intro other hot hnw hin'
    have hot := (altered_decodes_iff hpl hoff (by omega)).1 hot
    have htb' := hot.table (by omega)
    exact h.newest other hot hnw
      ((altered_intact_iff_of_ne hsl hpl hoff (by omega) (by omega) htb').1 hin')

/-- **Altered bytes.** When one byte of a payload of the mounted generation changes, a mount fails
or falls back to the other slot, exactly if the byte is not one of those at offsets 8 to 11. -/
theorem altered_byte_detected_iff {store : ObjectStore g}
    (hmount : ObjectStore.mount (Device.ofImage image) = .ok store)
    (hdecodes : Decodes g image store.activeSlot superblock) (hmem : layout ∈ superblock.objects)
    (hoff : off < layout.dataLen)
    (hbyte : byte ≠ image (layout.startLba * g.logicalBlockSize + off)) :
    (∀ mounted : ObjectStore g,
        ObjectStore.mount (Device.ofImage (altered g image layout off byte)) = .ok mounted →
          mounted.activeSlot ≠ store.activeSlot) ↔ ¬(8 ≤ off ∧ off < 12) := by
  obtain ⟨_, hop, -⟩ := mount_open rfl hmount
  have hus := hop.usable
  obtain ⟨superblock', hmn, -⟩ := (mount_ok_iff hus rfl).1 hmount
  have hsm := hmn.decodes.unique hdecodes
  subst hsm
  have hpl := (hmn.decodes.table hmn.inRange).placed layout hmem
  have hrn : inChecksumRange off ↔ 8 ≤ off ∧ off < 12 := by simp [inChecksumRange]
  rw [← hrn, ← hmn.altered_iff hmem hoff hbyte]
  constructor
  · intro hdt hmn'
    have hmt' : ObjectStore.mount (Device.ofImage (altered g image layout off byte)) =
        _ := Mounts.mount hus rfl hmn'
    exact hdt _ hmt' rfl
  · intro hcr mounted hmt' hac
    obtain ⟨other, hmn', -⟩ := (mount_ok_iff hus rfl).1 hmt'
    rw [hac] at hmn'
    have hot := (altered_decodes_iff hpl hoff hmn.inRange).1 hmn'.decodes
    rw [hot.unique hdecodes] at hmn'
    exact hcr hmn'

end Altered

/-! ## A store of one object -/

/-- The entry of the object, as the superblock of its commit has it. -/
def committedLayout (data : List UInt8) : ObjectLayout :=
  (layoutOf sixBlocks 4 ⟨1, "object", data⟩).stripped

/-- The medium after the commit. -/
def committedImage (data : List UInt8) : Medium UInt8 := (withOne [] data).commit.2.device.durable

theorem committed_mounts (data : List UInt8) (h : data.length ≤ 1024) :
    Mounts sixBlocks (committedImage data) 1 ⟨1, 1, [committedLayout data]⟩ ∧
      payload sixBlocks (committedImage data) (committedLayout data) = data := by
  have hly := buildObjectLayout_withOne [] h
  have hgn : (withOne [] data).generation + 1 < 2 ^ 64 := show 0 + 1 < 2 ^ 64 by decide
  have him : committedImage data = (withOne [] data).device.visible.apply 512
      (dataWrites sixBlocks [layoutOf sixBlocks 4 ⟨1, "object", data⟩] ++
        superblockWrites sixBlocks 1
          (nextSuperblock 0 [layoutOf sixBlocks 4 ⟨1, "object", data⟩])) := by
    unfold committedImage
    rw [commit_eq sixBlocks_usable rfl rfl (withOne_staged [] data) hly hgn]
    rfl
  obtain ⟨_, hop, -⟩ := (withOne_flushed [] h).mounts
  obtain ⟨hmn, hcn⟩ := hop.written hly hgn
  rw [him]
  exact ⟨hmn, List.head_eq_of_cons_eq (congrArg (List.map StoredObject.data) hcn)⟩

theorem mount_committed (data : List UInt8) (h : data.length ≤ 1024) :
    ∃ store, ObjectStore.mount (Device.ofImage (g := sixBlocks) (committedImage data)) = .ok store ∧
      store.activeSlot = 1 ∧ store.generation = 1 ∧ store.objects = [⟨1, "object", data⟩] := by
  obtain ⟨hmn, hpy⟩ := committed_mounts data h
  have hmt : ObjectStore.mount (Device.ofImage (committedImage data)) = _ :=
    Mounts.mount sixBlocks_usable rfl hmn
  refine ⟨_, hmt, rfl, rfl, ?_⟩
  change [loaded sixBlocks (committedImage data) (committedLayout data)] = _
  rw [loaded, hpy]
  rfl

theorem altered_byte_detected_first :
    ∃ store, ObjectStore.mount (Device.ofImage (g := sixBlocks) (committedImage [7])) = .ok store ∧
      ∀ mounted : ObjectStore sixBlocks, ObjectStore.mount (Device.ofImage
          (altered sixBlocks (committedImage [7]) (committedLayout [7]) 0 9)) = .ok mounted →
        mounted.activeSlot ≠ store.activeSlot := by
  obtain ⟨hmn, hpy⟩ := committed_mounts [7] (by decide)
  obtain ⟨store, hmt, hsl, -⟩ := mount_committed [7] (by decide)
  have hdc : Decodes sixBlocks (committedImage [7]) store.activeSlot
      ⟨1, 1, [committedLayout [7]]⟩ := by
    rw [hsl]
    exact hmn.decodes
  have hold : committedImage [7] (4 * 512 + 0) = 7 := List.head_eq_of_cons_eq hpy
  have hby : 9 ≠ committedImage [7] (4 * 512 + 0) := by
    rw [hold]
    decide
  exact ⟨store, hmt, (altered_byte_detected_iff hmt hdc (List.mem_singleton_self _)
    (by decide) hby).2 (by decide)⟩

/-- Byte 8 of a payload is not in the checksum. -/
theorem altered_byte_mounted :
    ∃ store mounted, ObjectStore.mount (Device.ofImage (g := sixBlocks)
        (committedImage [1, 2, 3, 4, 5, 6, 7, 8, 9, 10])) = .ok store ∧
      store.objects = [⟨1, "object", [1, 2, 3, 4, 5, 6, 7, 8, 9, 10]⟩] ∧
      ObjectStore.mount (Device.ofImage (g := sixBlocks) (altered sixBlocks
        (committedImage [1, 2, 3, 4, 5, 6, 7, 8, 9, 10])
        (committedLayout [1, 2, 3, 4, 5, 6, 7, 8, 9, 10]) 8 0)) = .ok mounted ∧
      mounted.generation = store.generation ∧
      mounted.objects = [⟨1, "object", [1, 2, 3, 4, 5, 6, 7, 8, 0, 10]⟩] := by
  obtain ⟨hmn, hpy⟩ := committed_mounts [1, 2, 3, 4, 5, 6, 7, 8, 9, 10] (by decide)
  obtain ⟨store, hmt, -, hgn, hob⟩ := mount_committed [1, 2, 3, 4, 5, 6, 7, 8, 9, 10] (by decide)
  generalize committedImage [1, 2, 3, 4, 5, 6, 7, 8, 9, 10] = image at *
  have hold : image (4 * 512 + 8) = 9 := by
    have hget := congrArg (fun bytes => bytes[8]?) hpy
    exact Option.some.inj hget
  have hby : 0 ≠ image (4 * 512 + 8) := by
    rw [hold]
    decide
  have hal := (hmn.altered_iff (List.mem_singleton_self _) (by decide) hby).2 rfl
  have hmn' : ObjectStore.mount (Device.ofImage (altered sixBlocks image
      (committedLayout [1, 2, 3, 4, 5, 6, 7, 8, 9, 10]) 8 0)) = _ :=
    Mounts.mount sixBlocks_usable rfl hal
  have hpy' : payload sixBlocks (altered sixBlocks image
      (committedLayout [1, 2, 3, 4, 5, 6, 7, 8, 9, 10]) 8 0)
      (committedLayout [1, 2, 3, 4, 5, 6, 7, 8, 9, 10]) = [1, 2, 3, 4, 5, 6, 7, 8, 0, 10] := by
    rw [payload_altered (by decide), hpy]
    rfl
  exact ⟨store, _, hmt, hob, hmn', hgn.symm,
    congrArg (fun data => [(⟨1, "object", data⟩ : StoredObject)]) hpy'⟩

end CleanSlate.Store
