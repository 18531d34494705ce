import CleanSlate.Store.Ops

/-!
# Payloads in chunks

Both loops over the chunks of a payload cover its blocks exactly once. A read that meets no fault
returns the bytes of the extent, and the writes of an object, if all of them are issued, put its
payload there, padded with zeros to whole blocks.
-/

namespace CleanSlate.Store

open Lib List Medium

variable {g : BlockGeometry} {max a b : Nat} {tiles : List (Nat × Nat)} {layout : ObjectLayout}
  {chunk : Nat × Nat}

/-! ## Chunks -/

/-- The chunks cover the blocks from `a` to `b` in order, none longer than `max`. -/
inductive Tiles (max : Nat) : Nat → List (Nat × Nat) → Nat → Prop
  | nil (a : Nat) : Tiles max a [] a
  | cons {a n b : Nat} {rest : List (Nat × Nat)} (pos : 0 < n) (le : n ≤ max)
      (tiles : Tiles max (a + n) rest b) : Tiles max a ((a, n) :: rest) b

theorem Tiles.le (h : Tiles max a tiles b) : a ≤ b := by
  induction h with
  | nil => exact le_rfl
  | cons _ _ _ ih => omega

theorem chunks_tile (hmax : 0 < max) (total : Nat) : Tiles max 0 (chunks max total) total := by
  have hcn : ∀ k, k < (total + (max - 1)) / max ↔ k * max < total := by
    intro k
    rw [Nat.lt_iff_add_one_le, Nat.le_div_iff_mul_le hmax, Nat.succ_mul]
    omega
  have htl : ∀ m k, k + m = (total + (max - 1)) / max →
      Tiles max (min (k * max) total) ((range' k m).map fun index =>
        (index * max, min max (total - index * max))) total := by
    intro m
    induction m with
    | zero =>
      intro k hk
      have hend : total ≤ k * max := by
        by_contra hlt
        exact absurd ((hcn k).2 (by omega)) (by omega)
      rw [Nat.min_eq_right hend]
      exact .nil total
    | succ m ih =>
      intro k hk
      have hlt : k * max < total := (hcn k).1 (by omega)
      have hnx := ih (k + 1) (by omega)
      rw [Nat.succ_mul] at hnx
      rw [Nat.min_eq_left (by omega)]
      refine .cons (by omega) (Nat.min_le_left _ _) ?_
      have hst : k * max + min max (total - k * max) = min (k * max + max) total := by omega
      rw [hst]
      exact hnx
  have hall := htl _ 0 (Nat.zero_add _)
  rw [Nat.zero_mul] at hall
  unfold chunks
  rw [range_eq_range']
  exact hall

/-! ## Reading -/

namespace Device

theorem readBlocks_eq {device : Device g} (hrd : device.faults.reads = []) {lba blocks len : Nat}
    (hpos : 0 < blocks) (hmax : blocks ≤ g.maxTransferBlocks)
    (hlen : len = blocks * g.logicalBlockSize) (hrn : lba + blocks ≤ g.blockCount) :
    device.readBlocks lba blocks len =
      (.ok (device.visible.peek (lba * g.logicalBlockSize) len), device) := by
  rw [Nat.mul_comm] at hlen
  have hfl : device.nextRead = (none, device) := by
    unfold nextRead
    rw [hrd]
  unfold readBlocks BlockGeometry.validateRead
  rw [BlockGeometry.validateTransfer_ok hpos hmax hlen hrn (by simp), hfl, hlen]
  simp

end Device

variable {device device' : Device g} {writes' writes : List (BlockWrite UInt8)}

section

variable (hreads : device.faults.reads = [])
include hreads

/-- The loop over chunks that cover the blocks from `a` to `b` fills in their bytes. -/
theorem readChunks_eq {startLba total : Nat}
    (h : Tiles g.maxTransferBlocks a tiles b) (hb : b ≤ total)
    (hrn : startLba + total ≤ g.blockCount) {buffer : List UInt8}
    (hlen : buffer.length = total * g.logicalBlockSize)
    (hdn : slice buffer 0 (a * g.logicalBlockSize) =
      device.visible.peek (startLba * g.logicalBlockSize) (a * g.logicalBlockSize)) :
    ∃ buffer', readChunks startLba device buffer tiles = (.ok buffer', device) ∧
      buffer'.length = total * g.logicalBlockSize ∧
      slice buffer' 0 (b * g.logicalBlockSize) =
        device.visible.peek (startLba * g.logicalBlockSize) (b * g.logicalBlockSize) := by
  induction h generalizing buffer with
  | nil a => exact ⟨buffer, rfl, hlen, hdn⟩
  | @cons a n b rest pos le tiles ih =>
    have hab := tiles.le
    have hn : (a + n) * g.logicalBlockSize ≤ total * g.logicalBlockSize :=
      Nat.mul_le_mul_right _ (Nat.le_trans hab hb)
    rw [Nat.add_mul] at hn
    rw [readChunks, Device.readBlocks_eq hreads pos le rfl (by simp only; omega)]
    have hby : (device.visible.peek ((startLba + a) * g.logicalBlockSize)
        (n * g.logicalBlockSize)).length = n * g.logicalBlockSize := length_peek _ _ _
    have hfit : a * g.logicalBlockSize + (device.visible.peek ((startLba + a) * g.logicalBlockSize)
        (n * g.logicalBlockSize)).length ≤ buffer.length := by
      rw [hby, hlen]
      exact hn
    refine ih hb ((length_splice hfit).trans hlen) ?_
    -- what was read before stays, and the new chunk follows it
    have hsp := slice_split (splice buffer (a * g.logicalBlockSize)
      (device.visible.peek ((startLba + a) * g.logicalBlockSize) (n * g.logicalBlockSize))) 0
      (Nat.le_add_right (a * g.logicalBlockSize) (n * g.logicalBlockSize))
    have hsz : (a + n) * g.logicalBlockSize =
        a * g.logicalBlockSize + n * g.logicalBlockSize := Nat.add_mul _ _ _
    rw [hsz, hsp, peek_add, Nat.add_sub_cancel_left, Nat.zero_add,
      slice_splice_self hfit hby, slice_splice_of_disjoint hfit (by omega), hdn, ← Nat.add_mul]

/-- The bytes on the medium that an entry of the table names. -/
def payload (g : BlockGeometry) (image : Medium UInt8) (layout : ObjectLayout) : List UInt8 :=
  image.peek (layout.startLba * g.logicalBlockSize) layout.dataLen

/-- The extent of an entry lies on the device and holds the payload. -/
structure ObjectLayout.OnDevice (g : BlockGeometry) (layout : ObjectLayout) : Prop where
  fits : layout.startLba + layout.blockCount ≤ g.blockCount
  len : layout.dataLen ≤ layout.blockCount * g.logicalBlockSize

/-- The payload has the checksum its entry records. -/
def Sound (g : BlockGeometry) (image : Medium UInt8) (layout : ObjectLayout) : Prop :=
  layout.blockCount = 0 ∨ checksum (payload g image layout) = layout.dataChecksum

instance (g : BlockGeometry) (image : Medium UInt8) (layout : ObjectLayout) :
    Decidable (Sound g image layout) :=
  inferInstanceAs (Decidable (_ ∨ _))

theorem readObjectData_eq (h : layout.OnDevice g) : readObjectData device layout =
      (if Sound g device.visible layout then .ok (payload g device.visible layout)
        else .error (.corrupt .objectChecksumMismatch), device) := by
  have hlen := h.len
  unfold readObjectData
  by_cases hzr : layout.blockCount = 0
  · have hsn : Sound g device.visible layout := Or.inl hzr
    rw [if_pos hzr, if_pos hsn]
    rw [hzr, Nat.zero_mul, Nat.le_zero] at hlen
    rw [payload, hlen]
    rfl
  · obtain ⟨buffer, hrd, hln, hby⟩ := readChunks_eq hreads
      (chunks_tile g.maxTransfer_pos layout.blockCount) le_rfl h.fits
      (length_replicate)
      (by simp [slice, peek])
    have hbf : buffer = device.visible.peek (layout.startLba * g.logicalBlockSize)
        (layout.blockCount * g.logicalBlockSize) := by
      rw [← hby, ← hln]
      simp [slice]
    rw [if_neg hzr, hrd, hbf]
    simp only
    rw [take_peek _ _ hlen, ← payload]
    by_cases hsum : checksum (payload g device.visible layout) = layout.dataChecksum
    · have hsn : Sound g device.visible layout := Or.inr hsum
      rw [if_neg (not_not.2 hsum), if_pos hsn]
    · have hun : ¬Sound g device.visible layout := not_or.2 ⟨hzr, hsum⟩
      rw [if_pos hsum, if_neg hun]

/-- The object an entry stands for on the medium. -/
def loaded (g : BlockGeometry) (image : Medium UInt8) (layout : ObjectLayout) : StoredObject :=
  ⟨layout.id, layout.name, payload g image layout⟩

theorem loadObjects_eq {layouts : List ObjectLayout} (h : ∀ layout ∈ layouts, layout.OnDevice g) :
    loadObjects device layouts = (if ∀ layout ∈ layouts, Sound g device.visible layout
        then .ok (layouts.map (loaded g device.visible))
        else .error (.corrupt .objectChecksumMismatch), device) := by
  induction layouts with
  | nil => simp [loadObjects]
  | cons layout layouts ih =>
    have hrs := ih fun l hl => h l (mem_cons_of_mem _ hl)
    rw [loadObjects, readObjectData_eq hreads (h layout mem_cons_self)]
    by_cases hsn : Sound g device.visible layout
    · rw [if_pos hsn]
      simp only
      rw [hrs]
      by_cases hall : ∀ l ∈ layouts, Sound g device.visible l
      · rw [if_pos hall, if_pos (forall_mem_cons.2 ⟨hsn, hall⟩)]
        rfl
      · rw [if_neg hall, if_neg fun hcn => hall (forall_mem_cons.1 hcn).2]
    · rw [if_neg hsn, if_neg fun hcn => hsn (forall_mem_cons.1 hcn).1]

end

/-! ## Writing -/

/-- The block writes of one chunk. -/
def chunkWrites (g : BlockGeometry) (object : ObjectLayout) (chunk : Nat × Nat) :
    List (BlockWrite UInt8) :=
  blockWrites g.logicalBlockSize (object.startLba + chunk.1) (chunkBuffer g object.data chunk)
    chunk.2

/-- The block writes of an object's payload. -/
def objectWrites (g : BlockGeometry) (object : ObjectLayout) : List (BlockWrite UInt8) :=
  if object.blockCount = 0 then []
  else (chunks g.maxTransferBlocks object.blockCount).flatMap (chunkWrites g object)

/-- The block writes of all payloads. -/
def dataWrites (g : BlockGeometry) (objects : List ObjectLayout) : List (BlockWrite UInt8) :=
  objects.flatMap (objectWrites g)

theorem dataWrites_cons (g : BlockGeometry) (object : ObjectLayout) (objects : List ObjectLayout) :
    dataWrites g (object :: objects) = objectWrites g object ++ dataWrites g objects :=
  flatMap_cons

/-- The device took the writes into its cache. -/
structure Device.Issues (device device' : Device g) (writes : List (BlockWrite UInt8)) : Prop where
  durable : device'.durable = device.durable
  pending : device'.pending = device.pending ++ writes
  reads : device'.faults.reads = device.faults.reads

theorem Device.Issues.trans {device'' : Device g} (h : device.Issues device' writes)
    (h' : device'.Issues device'' writes') : device.Issues device'' (writes ++ writes') :=
  ⟨h'.durable.trans h.durable, by rw [h'.pending, h.pending, append_assoc], h'.reads.trans h.reads⟩

theorem Device.Issues.refl (device : Device g) : device.Issues device [] :=
  ⟨rfl, (append_nil _).symm, rfl⟩

/-- A call that issues the writes, or fails with some of them issued. -/
inductive Wrote (device : Device g) (writes : List (BlockWrite UInt8)) :
    Except BlockIoError Unit × Device g → Prop
  | ok {device' : Device g} (issues : device.Issues device' writes) :
      Wrote device writes (.ok (), device')
  | error {error : BlockIoError} {device' : Device g} {issued : List (BlockWrite UInt8)}
      (sublist : issued.Sublist writes) (issues : device.Issues device' issued) :
      Wrote device writes (.error error, device')

theorem Device.nextWrite_spec (device : Device g) : device.nextWrite.2.durable = device.durable ∧
      device.nextWrite.2.faults.reads = device.faults.reads := by
  unfold nextWrite
  split
  · exact ⟨rfl, rfl⟩
  · exact ⟨rfl, rfl⟩

theorem writeBlocks_wrote (device : Device g) (lba blocks : Nat) (buffer : List UInt8) :
    Wrote device (blockWrites g.logicalBlockSize lba buffer blocks)
      (device.writeBlocks lba blocks buffer) := by
  obtain ⟨hdr, hreads⟩ := device.nextWrite_spec
  unfold Device.writeBlocks
  split
  · exact .error (nil_sublist _) (.refl device)
  split
  · next fault device' hnx =>
    rw [hnx] at hdr hreads
    exact .error filter_sublist ⟨hdr, rfl, hreads⟩
  · next device' hnx =>
    rw [hnx] at hdr hreads
    exact .ok ⟨hdr, rfl, hreads⟩

theorem Wrote.after {result : Except BlockIoError Unit × Device g}
    (h : device.Issues device' writes) (h' : Wrote device' writes' result) :
    Wrote device (writes ++ writes') result := by
  cases h' with
  | ok issues => exact .ok (h.trans issues)
  | error sublist issues => exact .error (sublist.append_left writes) (h.trans issues)

/-- A call that goes on with `rest` where it succeeded so far. -/
theorem Wrote.andThen {first : Except BlockIoError Unit × Device g}
    {rest : Device g → Except BlockIoError Unit × Device g}
    (hrs : ∀ device', Wrote device' writes' (rest device')) :
    Wrote device writes first → Wrote device (writes ++ writes') (match first with
      | (.error e, device) => (.error e, device)
      | (.ok (), device) => rest device) := by
  intro h
  cases h with
  | ok issues => exact (hrs _).after issues
  | error sublist issues =>
    exact .error (sublist.trans (sublist_append_left writes writes')) issues

theorem writeChunks_wrote (object : ObjectLayout) (device : Device g) (tiles : List (Nat × Nat)) :
    Wrote device (tiles.flatMap (chunkWrites g object)) (writeChunks object device tiles) := by
  induction tiles generalizing device with
  | nil => exact .ok (.refl device)
  | cons chunk tiles ih =>
    have hfr := writeBlocks_wrote device (object.startLba + chunk.1) chunk.2
      (chunkBuffer g object.data chunk)
    exact .andThen ih hfr

theorem writeObjectData_wrote (device : Device g) (object : ObjectLayout) :
    Wrote device (objectWrites g object) (writeObjectData device object) := by
  unfold objectWrites writeObjectData
  split
  · exact .ok (.refl device)
  · exact writeChunks_wrote object device _

theorem writeLayouts_wrote (device : Device g) (objects : List ObjectLayout) :
    Wrote device (dataWrites g objects) (ObjectStore.writeLayouts device objects) := by
  induction objects generalizing device with
  | nil => exact .ok (.refl device)
  | cons object objects ih =>
    exact .andThen ih (writeObjectData_wrote device object)

/-! ## What the writes put on the medium -/

/-- A payload filled up with zeros to whole blocks. -/
def padded (g : BlockGeometry) (object : ObjectLayout) : List UInt8 :=
  object.data ++ List.replicate (object.blockCount * g.logicalBlockSize - object.data.length) 0

variable {object : ObjectLayout}

section Padded

theorem length_padded (h : object.data.length ≤ object.blockCount * g.logicalBlockSize) :
    (padded g object).length = object.blockCount * g.logicalBlockSize := by
  rw [padded, length_append, length_replicate]
  omega

theorem length_chunkBuffer (g : BlockGeometry) (data : List UInt8) (chunk : Nat × Nat) :
    (chunkBuffer g data chunk).length = chunk.2 * g.logicalBlockSize := by
  unfold chunkBuffer
  simp only
  split
  · rw [length_splice, length_replicate]
    simp only [slice, length_take, length_drop, length_replicate]
    omega
  · rw [length_replicate]

section

variable (h : object.data.length ≤ object.blockCount * g.logicalBlockSize)
include h

/-- A chunk's buffer is its part of the padded payload. -/
theorem chunkBuffer_eq (hle : chunk.1 + chunk.2 ≤ object.blockCount) :
    chunkBuffer g object.data chunk =
      slice (padded g object) (chunk.1 * g.logicalBlockSize) (chunk.2 * g.logicalBlockSize) := by
  have hend : chunk.1 * g.logicalBlockSize + chunk.2 * g.logicalBlockSize ≤
      object.blockCount * g.logicalBlockSize := by
    rw [← Nat.add_mul]
    exact Nat.mul_le_mul_right _ hle
  -- both are the payload while it lasts and zero after it
  have hpd : ∀ i < object.blockCount * g.logicalBlockSize,
      (padded g object)[i]? = some (object.data[i]?.getD 0) := by
    intro i hi
    unfold padded
    by_cases hlt : i < object.data.length
    · rw [getElem?_append_left hlt, getElem?_eq_getElem hlt]
      rfl
    · rw [getElem?_append_right (by omega), getElem?_eq_none (Nat.not_lt.1 hlt),
        getElem?_replicate, if_pos (by omega)]
      rfl
  apply ext_getElem?
  intro i
  rw [getElem?_slice]
  by_cases hi : i < chunk.2 * g.logicalBlockSize
  · rw [if_pos hi, hpd _ (by omega)]
    unfold chunkBuffer
    simp only [length_replicate]
    split
    · rw [getElem?_splice, getElem?_slice]
      · by_cases hdt : chunk.1 * g.logicalBlockSize + i < object.data.length
        · rw [if_pos, if_pos (by omega), Nat.sub_zero, getElem?_eq_getElem hdt]
          · rfl
          · simp only [slice, length_take, length_drop]
            omega
        · rw [if_neg, getElem?_replicate, if_pos hi, getElem?_eq_none (Nat.not_lt.1 hdt)]
          · rfl
          · simp only [slice, length_take, length_drop]
            omega
      · simp only [slice, length_take, length_drop, length_replicate]
        omega
    · rw [getElem?_replicate, if_pos hi, getElem?_eq_none (by omega)]
      rfl
  · rw [if_neg hi]
    exact getElem?_eq_none (by rw [length_chunkBuffer]; omega)

/-- The chunks before block `b` write the payload up to it. -/
theorem apply_tiles (image : Medium UInt8) (htl : Tiles max a tiles b)
    (hb : b ≤ object.blockCount) :
    (image.poke (object.startLba * g.logicalBlockSize)
        ((padded g object).take (a * g.logicalBlockSize))).apply g.logicalBlockSize
          (tiles.flatMap (chunkWrites g object)) =
      image.poke (object.startLba * g.logicalBlockSize)
        ((padded g object).take (b * g.logicalBlockSize)) := by
  induction htl with
  | nil a => rfl
  | @cons a n b rest pos le tiles ih =>
    have hab := tiles.le
    have hlen : ((padded g object).take (a * g.logicalBlockSize)).length =
        a * g.logicalBlockSize := by
      have hle : a * g.logicalBlockSize ≤ object.blockCount * g.logicalBlockSize :=
        Nat.mul_le_mul_right _ (by omega)
      rw [length_take, length_padded h]
      omega
    have hsp : (padded g object).take ((a + n) * g.logicalBlockSize) =
        (padded g object).take (a * g.logicalBlockSize) ++
          slice (padded g object) (a * g.logicalBlockSize) (n * g.logicalBlockSize) := by
      rw [Nat.add_mul, take_add]
      rfl
    rw [← ih hb, flatMap_cons, apply_append, chunkWrites,
      apply_blockWrites _ _ _ (length_chunkBuffer g object.data (a, n)),
      chunkBuffer_eq h (by simp only; omega), hsp, poke_append, hlen, ← Nat.add_mul]

theorem apply_objectWrites (image : Medium UInt8) :
    image.apply g.logicalBlockSize (objectWrites g object) =
      image.poke (object.startLba * g.logicalBlockSize) (padded g object) := by
  unfold objectWrites
  split
  · next hzr =>
    have hnn : padded g object = [] := by
      rw [← length_eq_zero_iff, length_padded h, hzr, Nat.zero_mul]
    rw [hnn, poke_nil]
    rfl
  · have htl := apply_tiles h image (chunks_tile g.maxTransfer_pos object.blockCount) le_rfl
    rw [Nat.zero_mul, take_zero, poke_nil, ← length_padded h, take_length] at htl
    exact htl

end

theorem payload_objectWrites (hlen : object.dataLen = object.data.length)
    (h : object.data.length ≤ object.blockCount * g.logicalBlockSize) (image : Medium UInt8) :
    payload g (image.apply g.logicalBlockSize (objectWrites g object)) object = object.data := by
  have hsl : (image.poke (object.startLba * g.logicalBlockSize) (padded g object)).peek
      (object.startLba * g.logicalBlockSize) (object.blockCount * g.logicalBlockSize) =
        padded g object := peek_poke_self (length_padded h)
  rw [payload, apply_objectWrites h, hlen, ← take_peek _ _ h, hsl]
  exact take_left

theorem Tiles.mem (h : Tiles max a tiles b) (hmem : chunk ∈ tiles) :
    a ≤ chunk.1 ∧ chunk.1 + chunk.2 ≤ b := by
  induction h with
  | nil => cases hmem
  | cons _ _ tiles ih =>
    have hle := tiles.le
    rcases mem_cons.1 hmem with rfl | hmem
    · exact ⟨le_rfl, hle⟩
    · have hrs := ih hmem
      exact ⟨by omega, hrs.2⟩

theorem mem_objectWrites {w : BlockWrite UInt8} (h : w ∈ objectWrites g object) :
    object.startLba ≤ w.lba ∧ w.lba < object.startLba + object.blockCount ∧
      w.data.length ≤ g.logicalBlockSize := by
  unfold objectWrites at h
  split at h
  · cases h
  · obtain ⟨chunk, hch, hw⟩ := mem_flatMap.1 h
    have hrn := (chunks_tile g.maxTransfer_pos object.blockCount).mem hch
    have hwr := mem_blockWrites hw
    exact ⟨by omega, by omega, hwr.2.2⟩

theorem payload_apply_of_disjoint {image : Medium UInt8}
    (hlen : layout.dataLen ≤ layout.blockCount * g.logicalBlockSize)
    (hsz : ∀ w ∈ writes, w.data.length ≤ g.logicalBlockSize)
    (hwr : ∀ w ∈ writes, w.lba < layout.startLba ∨ layout.startLba + layout.blockCount ≤ w.lba) :
    payload g (image.apply g.logicalBlockSize writes) layout = payload g image layout := by
  refine peek_congr fun i hi hlt => apply_of_not_mem hsz fun w hw => ?_
  rcases hwr w hw with hbf | haf
  · right
    exact Nat.le_trans (Nat.mul_le_mul_right _ hbf) hi
  have hmul : (layout.startLba + layout.blockCount) * g.logicalBlockSize ≤
      w.lba * g.logicalBlockSize := Nat.mul_le_mul_right _ haf
  rw [Nat.add_mul] at hmul
  omega

end Padded

end CleanSlate.Store
