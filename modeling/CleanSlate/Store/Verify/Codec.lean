import CleanSlate.Lib.Checks
import CleanSlate.Store.Format

/-!
# What a superblock reads back as

A superblock decodes to what was encoded, payloads apart. The checksum is a sum of bytes: a change
of one byte changes it, unless the byte is one of the four that the sum passes over.
-/

namespace CleanSlate.Store

open Lib List ObjectLayout

variable {g : BlockGeometry}

/-! ## The checksum -/

/-- What a byte adds to the checksum. -/
def weight (index : Nat) (byte : UInt8) : UInt32 :=
  if inChecksumRange index then 0 else byte.toUInt32

theorem checksumFrom_cons (index : Nat) (sum : UInt32) (byte : UInt8) (bytes : List UInt8) :
    checksumFrom index sum (byte :: bytes) =
      checksumFrom (index + 1) (sum + weight index byte) bytes := by
  unfold weight
  rw [checksumFrom]
  by_cases h : inChecksumRange index
  · rw [if_pos h, if_pos h, UInt32.add_zero]
  · rw [if_neg h, if_neg h]

theorem checksumFrom_add (index : Nat) (sum extra : UInt32) (bytes : List UInt8) :
    checksumFrom index (sum + extra) bytes = checksumFrom index sum bytes + extra := by
  induction bytes generalizing index sum with
  | nil => rfl
  | cons byte bytes ih =>
    rw [checksumFrom_cons, checksumFrom_cons, ← ih, UInt32.add_assoc, UInt32.add_comm extra,
      ← UInt32.add_assoc]

variable {index : Nat} {bytes : List UInt8}

/-- Buffers that agree outside the checksum's own field have the same checksum. -/
theorem checksumFrom_congr {bytes' : List UInt8} (hlen : bytes.length = bytes'.length)
    (sum : UInt32) (h : ∀ k, inChecksumRange (index + k) = false → bytes[k]? = bytes'[k]?) :
    checksumFrom index sum bytes = checksumFrom index sum bytes' := by
  induction bytes generalizing bytes' index sum with
  | nil => rw [length_eq_zero_iff.1 hlen.symm]
  | cons byte bytes ih =>
    obtain ⟨byte', bytes', rfl⟩ := exists_cons_of_length_eq_add_one hlen.symm
    rw [checksumFrom_cons, checksumFrom_cons]
    have hwg : weight index byte = weight index byte' := by
      unfold weight
      cases hrn : inChecksumRange index with
      | true => rfl
      | false =>
        have hby := h 0 hrn
        simp only [getElem?_cons_zero, Option.some.injEq] at hby
        rw [hby]
    rw [hwg]
    refine ih (by simpa using hlen) _ fun k hk => ?_
    have hrs := h (k + 1) (by rwa [Nat.add_comm k 1, ← Nat.add_assoc])
    simpa only [getElem?_cons_succ] using hrs

theorem checksumFrom_set (index : Nat) (sum : UInt32) (bytes : List UInt8) {k : Nat}
    (h : k < bytes.length) (byte : UInt8) :
    checksumFrom index sum (bytes.set k byte) + weight (index + k) bytes[k] =
      checksumFrom index sum bytes + weight (index + k) byte := by
  induction bytes generalizing index sum k with
  | nil => cases h
  | cons first bytes ih =>
    cases k with
    | zero =>
      rw [set_cons_zero, checksumFrom_cons, checksumFrom_cons, checksumFrom_add,
        checksumFrom_add, UInt32.add_assoc,
        UInt32.add_comm (weight index byte), ← UInt32.add_assoc]
      rfl
    | succ k =>
      have hk : k < bytes.length := by simpa using h
      have hrs := ih (index + 1) (sum + weight index first) hk
      rw [Nat.add_assoc, Nat.add_comm 1 k] at hrs
      rw [set_cons_succ, checksumFrom_cons, checksumFrom_cons]
      exact hrs

/-- A change of one byte leaves the checksum exactly at the offsets it passes over. -/
theorem checksum_set_eq_iff {k : Nat} (h : k < bytes.length) {byte : UInt8}
    (hne : byte ≠ bytes[k]) :
    checksum (bytes.set k byte) = checksum bytes ↔ inChecksumRange k := by
  have hset := checksumFrom_set 0 0 bytes h byte
  rw [Nat.zero_add] at hset
  change checksum (bytes.set k byte) + _ = checksum bytes + _ at hset
  constructor
  · intro heq
    rw [heq] at hset
    have hwg : weight k bytes[k] = weight k byte := (UInt32.add_right_inj _).1 hset
    by_contra hrn
    unfold weight at hwg
    rw [if_neg hrn, if_neg hrn] at hwg
    refine hne (UInt8.toNat_inj.1 ?_)
    have hnat := congrArg UInt32.toNat hwg
    simpa using hnat.symm
  · intro hrn
    unfold weight at hset
    rw [if_pos hrn, if_pos hrn] at hset
    exact (UInt32.add_left_inj _).1 hset

theorem checksum_writeU32 (h : 12 ≤ bytes.length) (value : Nat) :
    checksum (writeU32 bytes 8 value) = checksum bytes := by
  have hfit : 8 + (toLe 4 value).length ≤ bytes.length := by
    exact h
  refine checksumFrom_congr (length_splice hfit) 0 fun k hk => ?_
  rw [getElem?_splice hfit, if_neg]
  rw [length_toLe]
  simp only [inChecksumRange, Bool.and_eq_false_iff, decide_eq_false_iff_not] at hk
  omega

/-! ## Geometry -/

/-- A geometry the store accepts. -/
structure Usable (g : BlockGeometry) : Prop where
  size : headerBytes + entryBytes * maxObjects ≤ g.logicalBlockSize
  arena : 0 < dataArenaBlocks g

theorem validateGeometry_ok_iff {g' : BlockGeometry} :
    validateGeometry g = .ok g' ↔ g' = g ∧ Usable g := by
  have hmax := g.maxTransfer_pos
  unfold validateGeometry
  rw [ite_error_eq_ok, ite_error_eq_ok, Except.ok.injEq]
  constructor
  · rintro ⟨hsz, har, rfl⟩
    exact ⟨rfl, by omega, by omega⟩
  · rintro ⟨rfl, hsz, har⟩
    exact ⟨by omega, by omega, rfl⟩

/-! ## One entry -/

/-- A table entry as it comes back from the medium: without its payload. -/
def ObjectLayout.stripped (self : ObjectLayout) : ObjectLayout := { self with data := [] }

/-- The values of an entry fit their fields. -/
structure ObjectLayout.Encodable (object : ObjectLayout) : Prop where
  name : validateObjectName object.name = .ok ()
  dataLen : object.dataLen < 2 ^ 32
  startLba : object.startLba < 2 ^ 64
  blockCount : object.blockCount < 2 ^ 32

theorem validateObjectName_ok_iff {name : String} : validateObjectName name = .ok () ↔
      0 < (nameBytes name).length ∧ (nameBytes name).length ≤ maxObjectNameBytes := by
  unfold validateObjectName
  rw [ite_error_eq_ok, ite_error_eq_ok, and_iff_left rfl]
  omega

/-- The first byte of entry `index`. -/
def entryStart (index : Nat) : Nat := headerBytes + entryBytes * index

/-- The fields of entry `index`. -/
def entryFields (index : Nat) (object : ObjectLayout) : List (Nat × List UInt8) :=
  [(entryStart index, [entryPresentFlag]),
    (entryStart index + 2, toLe 2 (nameBytes object.name).length),
    (entryStart index + 4, toLe 4 object.dataLen),
    (entryStart index + 8, toLe 8 object.startLba),
    (entryStart index + 16, toLe 4 object.blockCount),
    (entryStart index + 20, toLe 4 object.dataChecksum.toNat),
    (entryStart index + 24, toLe 8 object.id.toNat),
    (entryStart index + 32, nameBytes object.name)]

theorem writeEntry_eq (bytes : List UInt8) (index : Nat) (object : ObjectLayout) :
    writeEntry bytes index object = spliceAll bytes (entryFields index object) := rfl

variable {object : ObjectLayout} {objects : List ObjectLayout}

section Entry

theorem entryFields_range (h : object.Encodable) : ∀ field ∈ entryFields index object,
      entryStart index ≤ field.1 ∧ field.1 + field.2.length ≤ entryStart (index + 1) := by
  have hnm := (validateObjectName_ok_iff.1 h.name).2
  unfold maxObjectNameBytes at hnm
  simp only [entryFields, forall_mem_cons, length_toLe, length_singleton, entryStart,
    entryBytes, not_mem_nil, false_implies, implies_true, and_true]
  omega

theorem entryFields_fit (h : object.Encodable) (hfit : entryStart (index + 1) ≤ bytes.length) :
    FieldsFit bytes.length (entryFields index object) := fun field hf =>
  Nat.le_trans (entryFields_range h field hf).2 hfit

theorem entryFields_apart : (entryFields index object).Pairwise FieldsApart := by
  simp only [entryFields, FieldsApart, pairwise_cons, forall_mem_cons, length_toLe,
    length_singleton, not_mem_nil, false_implies, implies_true, List.Pairwise.nil,
    and_true]
  omega

section

variable (h : object.Encodable) (hfit : entryStart (index + 1) ≤ bytes.length)
include h hfit

theorem length_writeEntry : (writeEntry bytes index object).length = bytes.length := by
  rw [writeEntry_eq]
  exact length_spliceAll (entryFields_fit h hfit)

theorem slice_writeEntry {off n : Nat}
    (hd : off + n ≤ entryStart index ∨ entryStart (index + 1) ≤ off) :
    slice (writeEntry bytes index object) off n = slice bytes off n := by
  rw [writeEntry_eq]
  refine slice_spliceAll_of_disjoint (entryFields_fit h hfit) fun field hf => ?_
  have hrn := entryFields_range h field hf
  omega

theorem slice_writeEntry_field {off n : Nat} {source : List UInt8}
    (hmem : (off, source) ∈ entryFields index object) (hn : source.length = n) :
    slice (writeEntry bytes index object) off n = source := by
  rw [writeEntry_eq]
  exact slice_spliceAll (entryFields_fit h hfit) entryFields_apart hmem hn

end

end Entry

/-- An entry from the values of its fields. -/
def entryOf (flags : UInt8) (nameLen : Nat) (field : List UInt8)
    (id dataLen startLba blockCount dataChecksum : Nat) :
    Except CorruptFormatError (Option ObjectLayout) :=
  if flags &&& ~~~entryPresentFlag ≠ 0 then .error .invalidHeader
  else if flags &&& entryPresentFlag = 0 then .ok none
  else if nameLen = 0 ∨ nameLen > maxObjectNameBytes then .error .invalidNameEncoding
  else if (field.drop nameLen).any (· ≠ 0) then .error .invalidNameEncoding
  else match String.fromUTF8? ⟨(field.take nameLen).toArray⟩ with
    | none => .error .invalidNameEncoding
    | some name => .ok (some ⟨UInt64.ofNat id, name, [], dataLen, startLba, blockCount,
        UInt32.ofNat dataChecksum⟩)

theorem decodeEntry_eq (bytes : List UInt8) (index : Nat) :
    decodeEntry bytes index = entryOf (bytes.getD (entryStart index) 0)
      (ofLe (slice bytes (entryStart index + 2) 2)) (slice bytes (entryStart index + 32) 32)
      (ofLe (slice bytes (entryStart index + 24) 8)) (ofLe (slice bytes (entryStart index + 4) 4))
      (ofLe (slice bytes (entryStart index + 8) 8)) (ofLe (slice bytes (entryStart index + 16) 4))
      (ofLe (slice bytes (entryStart index + 20) 4)) := rfl

theorem getD_eq_of_slice {off : Nat} {byte : UInt8} (h : slice bytes off 1 = [byte]) :
    bytes.getD off 0 = byte := by
  have hget := congrArg (fun l => l[0]?) h
  simp only [getElem?_slice, Nat.zero_lt_one, if_true, Nat.add_zero] at hget
  rw [getD_eq_getElem?_getD, hget]
  rfl

theorem decodeEntry_congr {bytes' : List UInt8}
    (h : slice bytes (entryStart index) entryBytes = slice bytes' (entryStart index) entryBytes) :
    decodeEntry bytes index = decodeEntry bytes' index := by
  have hfl : ∀ off n, off + n ≤ entryBytes →
      slice bytes (entryStart index + off) n = slice bytes' (entryStart index + off) n := by
    intro off n hle
    rw [← slice_slice bytes hle, ← slice_slice bytes' hle, h]
  have hfg : bytes.getD (entryStart index) 0 = bytes'.getD (entryStart index) 0 := by
    have hget := congrArg (fun l => l[0]?) (hfl 0 1 (by decide))
    simp only [getElem?_slice, Nat.zero_lt_one, if_true, Nat.add_zero] at hget
    rw [getD_eq_getElem?_getD, getD_eq_getElem?_getD, hget]
  rw [decodeEntry_eq, decodeEntry_eq, hfg, hfl 2 2 (by decide), hfl 4 4 (by decide),
    hfl 8 8 (by decide), hfl 16 4 (by decide), hfl 20 4 (by decide),
    hfl 24 8 (by decide), hfl 32 32 (by decide)]

theorem slice_of_zeros {start len off n : Nat} (h : slice bytes start len = replicate len 0)
    (hle : off + n ≤ len) : slice bytes (start + off) n = replicate n 0 := by
  rw [← slice_slice bytes hle, h]
  simp only [slice, drop_replicate, take_replicate]
  rw [Nat.min_eq_left (by omega)]

theorem decodeEntry_zero (h : slice bytes (entryStart index) entryBytes = replicate entryBytes 0) :
    decodeEntry bytes index = .ok none := by
  have hfl : slice bytes (entryStart index) 1 = [0] :=
    @slice_of_zeros bytes (entryStart index) entryBytes 0 1 h (by decide)
  rw [decodeEntry_eq, getD_eq_of_slice hfl]
  rfl

section

variable (h : object.Encodable) (hfit : entryStart (index + 1) ≤ bytes.length)
  (hzero : slice bytes (entryStart index) entryBytes = List.replicate entryBytes 0)
include h hfit hzero

/-- The name field of an entry written over zeros: the name, and zeros after it. -/
theorem slice_writeEntry_name : slice (writeEntry bytes index object) (entryStart index + 32) 32 =
      nameBytes object.name ++ replicate (32 - (nameBytes object.name).length) 0 := by
  have hmax : (nameBytes object.name).length ≤ 32 := (validateObjectName_ok_iff.1 h.name).2
  have hnm : slice (writeEntry bytes index object) (entryStart index + 32)
      (nameBytes object.name).length = nameBytes object.name :=
    slice_writeEntry_field h hfit (by simp [entryFields]) rfl
  -- no field of the entry lies after the name
  have htl : slice (writeEntry bytes index object)
      (entryStart index + 32 + (nameBytes object.name).length)
      (32 - (nameBytes object.name).length) =
        replicate (32 - (nameBytes object.name).length) 0 := by
    rw [writeEntry_eq, slice_spliceAll_of_disjoint (entryFields_fit h hfit), Nat.add_assoc]
    · refine slice_of_zeros hzero ?_
      unfold entryBytes
      omega
    · simp only [entryFields, forall_mem_cons, length_toLe, length_singleton,
        not_mem_nil, false_implies, implies_true, and_true]
      omega
  rw [slice_split _ _ hmax, hnm, htl]

/-- An object's entry, written over zeros, decodes to the object. -/
theorem decodeEntry_writeEntry :
    decodeEntry (writeEntry bytes index object) index = .ok (some object.stripped) := by
  obtain ⟨hpos, hmax⟩ := validateObjectName_ok_iff.1 h.name
  have hfl : ∀ off n source, (off, source) ∈ entryFields index object → source.length = n →
      slice (writeEntry bytes index object) off n = source :=
    fun off n source hmem hn => slice_writeEntry_field h hfit hmem hn
  have hnm : ∀ off w value, (off, toLe w value) ∈ entryFields index object →
      value < 256 ^ w → ofLe (slice (writeEntry bytes index object) off w) = value := by
    intro off w value hmem hlt
    rw [hfl off w _ hmem (length_toLe w value), ofLe_toLe_of_lt hlt]
  have hna : String.fromUTF8? ⟨((nameBytes object.name ++
      replicate (32 - (nameBytes object.name).length) 0).take
        (nameBytes object.name).length).toArray⟩ = some object.name := by
    rw [take_left]
    exact dif_pos object.name.isValidUTF8
  have htl : ((nameBytes object.name ++ replicate (32 - (nameBytes object.name).length) 0).drop
        (nameBytes object.name).length).any (· ≠ 0) = false := by
    simp
  unfold maxObjectNameBytes at hmax
  rw [decodeEntry_eq, slice_writeEntry_name h hfit hzero,
    getD_eq_of_slice (hfl (entryStart index) 1 [entryPresentFlag] (by simp [entryFields]) rfl),
    hnm (entryStart index + 2) 2 (nameBytes object.name).length (by simp [entryFields]) (by omega),
    hnm (entryStart index + 4) 4 object.dataLen (by simp [entryFields]) h.dataLen,
    hnm (entryStart index + 8) 8 object.startLba (by simp [entryFields]) h.startLba,
    hnm (entryStart index + 16) 4 object.blockCount (by simp [entryFields]) h.blockCount,
    hnm (entryStart index + 20) 4 object.dataChecksum.toNat (by simp [entryFields])
      object.dataChecksum.toNat_lt,
    hnm (entryStart index + 24) 8 object.id.toNat (by simp [entryFields]) object.id.toNat_lt]
  unfold entryOf
  rw [if_neg (by decide), if_neg (by decide), if_neg (by unfold maxObjectNameBytes; omega), hna]
  simp [stripped]

end

/-! ## The table -/

theorem entryStart_mono {i j : Nat} (h : i ≤ j) : entryStart i ≤ entryStart j :=
  Nat.add_le_add_left (Nat.mul_le_mul_left _ h) _

theorem entryStart_succ (i : Nat) : entryStart (i + 1) = entryStart i + entryBytes := by
  unfold entryStart
  rw [Nat.mul_succ, Nat.add_assoc]

/-- Where a table fits, its first entry does, and the rest behind it. -/
theorem entries_fit (h : object.Encodable)
    (hfit : entryStart (index + 1 + objects.length) ≤ bytes.length) :
    entryStart (index + 1) ≤ bytes.length ∧
      entryStart (index + 1 + objects.length) ≤ (writeEntry bytes index object).length := by
  have hfr := Nat.le_trans (entryStart_mono (Nat.le_add_right _ _)) hfit
  refine ⟨hfr, ?_⟩
  rw [length_writeEntry h hfr]
  exact hfit

theorem slice_writeEntries (h : ∀ o ∈ objects, o.Encodable)
    (hfit : entryStart (index + objects.length) ≤ bytes.length) :
    (writeEntries bytes index objects).length = bytes.length ∧
    ∀ off n, off + n ≤ entryStart index ∨ entryStart (index + objects.length) ≤ off →
      slice (writeEntries bytes index objects) off n = slice bytes off n := by
  induction objects generalizing bytes index with
  | nil => exact ⟨rfl, fun _ _ _ => rfl⟩
  | cons object objects ih =>
    have hob := h object mem_cons_self
    rw [length_cons, Nat.add_comm _ 1, ← Nat.add_assoc] at hfit ⊢
    obtain ⟨hfr, hfit'⟩ := entries_fit hob hfit
    obtain ⟨hln, hsl⟩ := ih (fun o ho => h o (mem_cons_of_mem _ ho)) hfit'
    rw [writeEntries]
    refine ⟨hln.trans (length_writeEntry hob hfr), fun off n hd => ?_⟩
    have hmn := entryStart_mono (Nat.le_add_right index 1)
    have hmn' := entryStart_mono (Nat.le_add_right (index + 1) objects.length)
    rw [hsl off n (by omega)]
    exact slice_writeEntry hob hfr (by omega)

theorem decodeEntries_zero (index count : Nat) (h : ∀ j, index ≤ j → j < index + count →
      slice bytes (entryStart j) entryBytes = replicate entryBytes 0) :
    decodeEntries bytes index count = .ok [] := by
  induction count generalizing index with
  | zero => rfl
  | succ count ih =>
    rw [decodeEntries, decodeEntry_zero (h index le_rfl (by omega))]
    rw [ih (index + 1) fun j hj hlt => h j (by omega) (by omega)]
    rfl

/-- A table written over zeros decodes to its objects. -/
theorem decodeEntries_writeEntries (h : ∀ o ∈ objects, o.Encodable)
    {rest : Nat} (hfit : entryStart (index + objects.length) ≤ bytes.length)
    (hzero : ∀ j, index ≤ j → j < index + objects.length + rest →
      slice bytes (entryStart j) entryBytes = replicate entryBytes 0) :
    decodeEntries (writeEntries bytes index objects) index (objects.length + rest) =
      .ok (objects.map stripped) := by
  induction objects generalizing bytes index with
  | nil =>
    rw [length_nil, Nat.zero_add]
    exact decodeEntries_zero index rest fun j hj hlt => hzero j hj (by simpa using hlt)
  | cons object objects ih =>
    have hob := h object mem_cons_self
    have hoj : ∀ o ∈ objects, o.Encodable := fun o ho => h o (mem_cons_of_mem _ ho)
    rw [length_cons, Nat.add_comm _ 1, ← Nat.add_assoc] at hfit hzero
    obtain ⟨hfr, hfit'⟩ := entries_fit hob hfit
    -- the entries after this one do not reach into it, nor this one into them
    have hown : decodeEntry (writeEntries (writeEntry bytes index object) (index + 1) objects)
        index = .ok (some object.stripped) := by
      have hsl := (slice_writeEntries hoj hfit').2 (entryStart index) entryBytes
        (.inl (Nat.le_of_eq (entryStart_succ index).symm))
      rw [decodeEntry_congr hsl]
      exact decodeEntry_writeEntry hob hfr (hzero index le_rfl (by omega))
    have hrs := ih hoj hfit' fun j hj hlt => by
      rw [slice_writeEntry hob hfr (.inr (entryStart_mono hj))]
      exact hzero j (by omega) hlt
    have hcn : (object :: objects).length + rest = objects.length + rest + 1 := by
      rw [length_cons]
      omega
    rw [hcn, decodeEntries, writeEntries, hown]
    rw [hrs]
    rfl

/-! ## The superblock -/

def headerFields (g : BlockGeometry) (superblock : Superblock) : List (Nat × List UInt8) :=
  [(0, toLe 4 storeMagic), (4, toLe 2 storeVersion), (12, toLe 8 superblock.generation),
    (20, toLe 4 g.logicalBlockSize), (24, toLe 8 g.blockCount), (32, toLe 4 maxObjects),
    (36, toLe 4 superblock.objectCount), (40, toLe 8 dataStartLba)]

section

variable (g : BlockGeometry) (superblock : Superblock)

theorem writeHeader_eq (bytes : List UInt8) :
    writeHeader g superblock bytes = spliceAll bytes (headerFields g superblock) := rfl

theorem headerFields_range :
    ∀ field ∈ headerFields g superblock, field.1 + field.2.length ≤ headerBytes := by
  simp [headerFields, headerBytes]

theorem headerFields_apart : (headerFields g superblock).Pairwise FieldsApart := by
  simp [headerFields, FieldsApart]

end

/-- The values of a superblock fit their fields. -/
structure Superblock.Encodable (superblock : Superblock) : Prop where
  generation : superblock.generation < 2 ^ 64
  count : superblock.objectCount = superblock.objects.length
  capacity : superblock.objects.length ≤ maxObjects
  objects : ∀ o ∈ superblock.objects, o.Encodable

/-- A superblock as it comes back from the medium. -/
def Superblock.stripped (self : Superblock) : Superblock := { self with
  objects := self.objects.map ObjectLayout.stripped }

section Superblock
variable {superblock : Superblock}

/-- A superblock before its checksum is written. -/
def unsealed (g : BlockGeometry) (superblock : Superblock) : List UInt8 :=
  writeEntries (writeHeader g superblock (List.replicate g.logicalBlockSize 0)) 0 superblock.objects

theorem encodeSuperblock_eq (g : BlockGeometry) (superblock : Superblock) :
    encodeSuperblock g superblock =
      writeU32 (unsealed g superblock) 8 (checksum (unsealed g superblock)).toNat := rfl

theorem headerFields_fit (hus : Usable g) (superblock : Superblock) :
    FieldsFit (replicate g.logicalBlockSize (0 : UInt8)).length (headerFields g superblock) := by
  intro field hf
  have hrn := headerFields_range g superblock field hf
  have hsz := hus.size
  rw [length_replicate]
  omega

section

variable (husable : Usable g) (h : superblock.Encodable)
include husable h

theorem unsealed_spec : (unsealed g superblock).length = g.logicalBlockSize ∧
    (∀ off w value, (off, toLe w value) ∈ headerFields g superblock →
      slice (unsealed g superblock) off w = toLe w value) ∧
    decodeEntries (unsealed g superblock) 0 maxObjects = .ok (superblock.objects.map stripped) := by
  have hfit := headerFields_fit husable superblock
  have hsz := husable.size
  have hlen : (writeHeader g superblock (replicate g.logicalBlockSize 0)).length =
      g.logicalBlockSize := by
    rw [writeHeader_eq, length_spliceAll hfit, length_replicate]
  have hrm : entryStart (0 + superblock.objects.length) ≤
      (writeHeader g superblock (replicate g.logicalBlockSize 0)).length := by
    rw [hlen, Nat.zero_add]
    exact Nat.le_trans (entryStart_mono h.capacity) hsz
  obtain ⟨hln, hsl⟩ := slice_writeEntries h.objects hrm
  refine ⟨hln.trans hlen, fun off w value hmem => ?_, ?_⟩
  · have hrn := headerFields_range g superblock _ hmem
    rw [length_toLe] at hrn
    rw [unsealed, hsl off w (.inl hrn), writeHeader_eq]
    exact slice_spliceAll hfit (headerFields_apart g superblock) hmem (length_toLe w value)
  · have hcp := h.capacity
    have hcn : superblock.objects.length + (maxObjects - superblock.objects.length) =
        maxObjects := by omega
    rw [← hcn]
    refine decodeEntries_writeEntries h.objects hrm fun j _ hlt => ?_
    have hj : entryStart (j + 1) ≤ g.logicalBlockSize :=
      Nat.le_trans (entryStart_mono (by omega)) hsz
    rw [entryStart_succ] at hj
    rw [writeHeader_eq, slice_spliceAll_of_disjoint hfit]
    · simp only [slice, drop_replicate, take_replicate]
      rw [Nat.min_eq_left (by omega)]
    · intro field hf
      exact .inr (Nat.le_trans (headerFields_range g superblock field hf) (Nat.le_add_right _ _))

theorem length_encodeSuperblock : (encodeSuperblock g superblock).length = g.logicalBlockSize := by
  obtain ⟨hlen, -, -⟩ := unsealed_spec husable h
  have hsz := husable.size
  unfold headerBytes entryBytes maxObjects at hsz
  rw [encodeSuperblock_eq, writeU32, length_splice, hlen]
  rw [length_toLe]
  omega

/-- Sealing a superblock changes the checksum field only. -/
theorem slice_encodeSuperblock {off n : Nat} (hd : off + n ≤ 8 ∨ 12 ≤ off) :
    slice (encodeSuperblock g superblock) off n = slice (unsealed g superblock) off n := by
  obtain ⟨hlen, -, -⟩ := unsealed_spec husable h
  have hsz := husable.size
  unfold headerBytes entryBytes maxObjects at hsz
  rw [encodeSuperblock_eq, writeU32, slice_splice_of_disjoint]
  · rw [length_toLe]
    omega
  · exact hd

end

theorem decodeEntries_congr {bytes bytes' : List UInt8} {index count : Nat}
    (h : ∀ j, index ≤ j → j < index + count →
      slice bytes (entryStart j) entryBytes = slice bytes' (entryStart j) entryBytes) :
    decodeEntries bytes index count = decodeEntries bytes' index count := by
  induction count generalizing index with
  | zero => rfl
  | succ count ih =>
    rw [decodeEntries, decodeEntries, decodeEntry_congr (h index le_rfl (by omega)),
      ih fun j hj hlt => h j (by omega) (by omega)]

/-- A block that is accepted as a superblock. -/
structure Accepted (g : BlockGeometry) (slot : Nat) (bytes : List UInt8)
    (superblock : Superblock) : Prop where
  magic : readU32 bytes 0 = storeMagic
  version : readU16 bytes 4 = storeVersion
  sum : (checksum bytes).toNat = readU32 bytes 8
  blockSize : readU32 bytes 20 = g.logicalBlockSize
  blockCount : readU64 bytes 24 = g.blockCount
  maxObjects : readU32 bytes 32 = Store.maxObjects
  dataStart : readU64 bytes 40 = dataStartLba
  capacity : readU32 bytes 36 ≤ Store.maxObjects
  entries : decodeEntries bytes 0 Store.maxObjects = .ok superblock.objects
  length : superblock.objects.length = readU32 bytes 36
  layouts : validateLayouts g slot superblock.objects = .ok ()
  generation : superblock.generation = readU64 bytes 12
  count : superblock.objectCount = readU32 bytes 36

theorem decodeSuperblock_ok_iff {slot : Nat} :
    decodeSuperblock g slot bytes = .ok superblock ↔ Accepted g slot bytes superblock := by
  constructor
  · intro h
    unfold decodeSuperblock at h
    split_ifs at h with hmg hvr hsum
    simp only at h
    split_ifs at h with hhd
    simp only [not_not, not_or, not_lt] at hmg hvr hsum hhd
    obtain ⟨hsz, hcn, hmax, hst, hcp⟩ := hhd
    split at h
    · cases h
    next objects hen =>
    split_ifs at h with hln
    rw [not_not] at hln
    split at h
    · cases h
    · next hly =>
      cases h
      exact ⟨hmg, hvr, hsum, hsz, hcn, hmax, hst, hcp, hen, hln, hly, rfl, rfl⟩
  · intro h
    obtain ⟨generation, objectCount, objects⟩ := superblock
    obtain ⟨hmg, hvr, hsum, hsz, hcn, hmax, hst, hcp, hen, hln, hly, hgn, hob⟩ := h
    simp only at hen hln hly hgn hob
    unfold decodeSuperblock
    rw [if_neg (not_not.2 hmg), if_neg (not_not.2 hvr), if_neg (not_not.2 hsum),
      if_neg (by simp [hsz, hcn, hmax, hst, hcp]), hen]
    simp only
    rw [if_neg (not_not.2 hln), hly, hgn, hob]

/-- **Superblock round trip.** A superblock whose layouts are in order decodes to itself, without
the payloads. -/
theorem decodeSuperblock_encodeSuperblock (husable : Usable g) (h : superblock.Encodable)
    {slot : Nat}
    (hly : validateLayouts g slot (superblock.objects.map stripped) = .ok ()) :
    decodeSuperblock g slot (encodeSuperblock g superblock) = .ok superblock.stripped := by
  obtain ⟨hlen, hhd, hen⟩ := unsealed_spec husable h
  have hsz := husable.size
  unfold headerBytes entryBytes maxObjects at hsz
  have hnm : ∀ off w value, (off, toLe w value) ∈ headerFields g superblock →
      value < 256 ^ w → off + w ≤ 8 ∨ 12 ≤ off →
      ofLe (slice (encodeSuperblock g superblock) off w) = value := by
    intro off w value hmem hlt hd
    rw [slice_encodeSuperblock husable h hd, hhd off w value hmem, ofLe_toLe_of_lt hlt]
  have hsum : readU32 (encodeSuperblock g superblock) 8 =
      (checksum (encodeSuperblock g superblock)).toNat := by
    rw [encodeSuperblock_eq, checksum_writeU32 (by rw [hlen]; omega), readU32, writeU32,
      slice_splice_self (by rw [length_toLe]; omega) (length_toLe _ _)]
    exact ofLe_toLe_of_lt (UInt32.toNat_lt _)
  have htb : decodeEntries (encodeSuperblock g superblock) 0 maxObjects =
      .ok (superblock.objects.map stripped) := by
    rw [← hen]
    refine decodeEntries_congr fun j _ _ => slice_encodeSuperblock husable h (.inr ?_)
    exact Nat.le_trans (by decide) (entryStart_mono (Nat.zero_le j))
  have hcp := h.capacity
  unfold maxObjects at hcp
  have hcn : readU32 (encodeSuperblock g superblock) 36 = superblock.objects.length := by
    rw [← h.count]
    exact hnm 36 4 superblock.objectCount (by simp [headerFields]) (by rw [h.count]; omega)
      (by omega)
  have hbl : g.blockCount < 2 ^ 64 :=
    Nat.lt_of_le_of_lt (Nat.le_mul_of_pos_left _ g.blockSize_pos) g.capacity_lt
  refine decodeSuperblock_ok_iff.2 ⟨?_, ?_, hsum.symm, ?_, ?_, ?_, ?_, ?_, htb, ?_, hly, ?_, ?_⟩
  · exact hnm 0 4 storeMagic (by simp [headerFields]) (by decide) (by omega)
  · exact hnm 4 2 storeVersion (by simp [headerFields]) (by decide) (by omega)
  · exact hnm 20 4 g.logicalBlockSize (by simp [headerFields]) g.blockSize_lt (by omega)
  · exact hnm 24 8 g.blockCount (by simp [headerFields]) hbl (by omega)
  · exact hnm 32 4 maxObjects (by simp [headerFields]) (by decide) (by omega)
  · exact hnm 40 8 dataStartLba (by simp [headerFields]) (by decide) (by omega)
  · rw [hcn]
    exact hcp
  · rw [hcn]
    exact length_map _
  · exact (hnm 12 8 superblock.generation (by simp [headerFields]) h.generation (by omega)).symm
  · rw [hcn]
    exact h.count

end Superblock

end CleanSlate.Store
