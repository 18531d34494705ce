import CleanSlate.Store.Block
import Mathlib.Data.List.Sort

/-!
# The on-disk format

Superblocks, object tables and arenas of `store/src/lib.rs`. The two slots alternate; each has one
block for its superblock and one half of the rest of the device for the objects' payloads.
-/

namespace CleanSlate.Store

open Lib

def storeMagic : Nat := 0x43534F31
def storeVersion : Nat := 1
def superblockSlots : Nat := 2
def dataStartLba : Nat := superblockSlots
def maxObjects : Nat := 7
def maxObjectNameBytes : Nat := 32
def headerBytes : Nat := 48
def entryBytes : Nat := 64
def entryPresentFlag : UInt8 := 0x01

/-- `u32::MAX`. -/
def u32Max : Nat := 2 ^ 32 - 1

structure StoredObject where
  id : UInt64
  name : String
  data : List UInt8
  deriving DecidableEq

inductive IncompatibleFormatError where
  | badMagic
  | unsupportedVersion (version : Nat)
  deriving DecidableEq, Repr

inductive CorruptFormatError where
  | checksumMismatch
  | invalidHeader
  | invalidObjectCount (count : Nat)
  | invalidNameEncoding
  | duplicateObjectId (id : UInt64)
  | duplicateObjectName
  | invalidObjectLength
  | invalidObjectExtent
  | overlappingObjectExtents
  | objectChecksumMismatch
  deriving DecidableEq, Repr

inductive StoreError where
  | block (error : BlockIoError)
  | unsupportedGeometry (logicalBlockSize blockCount : Nat)
  | invalidObjectName
  | objectNameTooLong (len max : Nat)
  | objectTooLarge (len max : Nat)
  | objectTableFull (maxObjects : Nat)
  | storageFull (requiredBlocks availableBlocks : Nat)
  | notFound
  | identityConflict
  | generationExhausted
  | incompatible (error : IncompatibleFormatError)
  | corrupt (error : CorruptFormatError)
  deriving DecidableEq, Repr

inductive SlotDecodeError where
  | incompatible (error : IncompatibleFormatError)
  | corrupt (error : CorruptFormatError)
  deriving DecidableEq, Repr

/-- An entry of the object table. The payload is there when the layout is built, and empty when it
is read back. -/
structure ObjectLayout where
  id : UInt64
  name : String
  data : List UInt8
  dataLen : Nat
  startLba : Nat
  blockCount : Nat
  dataChecksum : UInt32
  deriving DecidableEq

structure Superblock where
  generation : Nat
  objectCount : Nat
  objects : List ObjectLayout
  deriving DecidableEq

/-! ## Numbers and checksums -/

variable (g : BlockGeometry) (bytes : List UInt8)

def readU16 (offset : Nat) : Nat := ofLe (slice bytes offset 2)
def readU32 (offset : Nat) : Nat := ofLe (slice bytes offset 4)
def readU64 (offset : Nat) : Nat := ofLe (slice bytes offset 8)

def writeU16 (offset value : Nat) : List UInt8 := splice bytes offset (toLe 2 value)

def writeU32 (offset value : Nat) : List UInt8 := splice bytes offset (toLe 4 value)

def writeU64 (offset value : Nat) : List UInt8 := splice bytes offset (toLe 8 value)

/-- The offsets the checksum passes over, in a superblock and in a payload alike. -/
def inChecksumRange (index : Nat) : Bool := 8 ≤ index && index < 12

/-- The loop of `checksum` from `index` on. -/
def checksumFrom (index : Nat) (sum : UInt32) : List UInt8 → UInt32
  | [] => sum
  | byte :: bytes =>
    checksumFrom (index + 1) (if inChecksumRange index then sum else sum + byte.toUInt32) bytes

def checksum : UInt32 := checksumFrom 0 0 bytes

/-! ## Geometry and arenas -/

def dataArenaBlocks : Nat := (g.blockCount - dataStartLba) / superblockSlots

/-- The blocks of a slot's payloads: first, and first after them. -/
def slotDataArena (slot : Nat) : Nat × Nat :=
  let arenaBlocks := dataArenaBlocks g
  let start := dataStartLba + slot * arenaBlocks
  (start, start + arenaBlocks)

def validateGeometry : Except StoreError BlockGeometry :=
  if g.logicalBlockSize < headerBytes + entryBytes * maxObjects ∨ g.maxTransferBlocks = 0 then
    .error (.unsupportedGeometry g.logicalBlockSize g.blockCount)
  else if dataArenaBlocks g = 0 then
    .error (.unsupportedGeometry g.logicalBlockSize g.blockCount)
  else .ok g

/-- The UTF-8 bytes of a name. -/
def nameBytes (name : String) : List UInt8 := name.toUTF8.data.toList

def validateObjectName (name : String) : Except StoreError Unit :=
  if (nameBytes name).length = 0 then .error .invalidObjectName
  else if (nameBytes name).length > maxObjectNameBytes then
    .error (.objectNameTooLong (nameBytes name).length maxObjectNameBytes)
  else .ok ()

/-! ## Layout -/

/-- The blocks an object of `len` bytes takes. -/
def objectBlocks (len : Nat) : Nat :=
  if len = 0 then 0 else (len + (g.logicalBlockSize - 1)) / g.logicalBlockSize

/-- The loop of `build_object_layout`: the layouts from `nextLba` on, and the block after them. -/
def layoutObjects (g : BlockGeometry) (nextLba : Nat) :
    List StoredObject → Except StoreError (List ObjectLayout × Nat)
  | [] => .ok ([], nextLba)
  | object :: objects =>
    match validateObjectName object.name with
    | .error error => .error error
    | .ok () =>
      if object.data.length > u32Max then .error (.objectTooLarge object.data.length u32Max)
      else
        let blockCount := objectBlocks g object.data.length
        if nextLba + blockCount ≥ 2 ^ 64 then
          .error (.storageFull (2 ^ 64 - 1) (dataArenaBlocks g))
        else match layoutObjects g (nextLba + blockCount) objects with
          | .error error => .error error
          | .ok (layouts, stop) => .ok (⟨object.id, object.name, object.data, object.data.length,
              nextLba, blockCount, checksum object.data⟩ :: layouts, stop)

def buildObjectLayout (slot : Nat) (objects : List StoredObject) :
    Except StoreError (List ObjectLayout) :=
  let arena := slotDataArena g slot
  match layoutObjects g arena.1 objects with
  | .error error => .error error
  | .ok (layouts, nextLba) =>
    if nextLba > arena.2 then .error (.storageFull (nextLba - arena.1) (dataArenaBlocks g))
    else .ok layouts

/-! ## Encoding -/

/-- Writes entry `index` of the object table. -/
def writeEntry (index : Nat) (object : ObjectLayout) : List UInt8 :=
  let start := headerBytes + entryBytes * index
  let bytes := splice bytes start [entryPresentFlag]
  let bytes := writeU16 bytes (start + 2) (nameBytes object.name).length
  let bytes := writeU32 bytes (start + 4) object.dataLen
  let bytes := writeU64 bytes (start + 8) object.startLba
  let bytes := writeU32 bytes (start + 16) object.blockCount
  let bytes := writeU32 bytes (start + 20) object.dataChecksum.toNat
  let bytes := writeU64 bytes (start + 24) object.id.toNat
  splice bytes (start + 32) (nameBytes object.name)

/-- The loop over the object table, from `index` on. -/
def writeEntries (bytes : List UInt8) (index : Nat) : List ObjectLayout → List UInt8
  | [] => bytes
  | object :: objects => writeEntries (writeEntry bytes index object) (index + 1) objects

def writeHeader (superblock : Superblock) (bytes : List UInt8) : List UInt8 :=
  let bytes := writeU32 bytes 0 storeMagic
  let bytes := writeU16 bytes 4 storeVersion
  let bytes := writeU64 bytes 12 superblock.generation
  let bytes := writeU32 bytes 20 g.logicalBlockSize
  let bytes := writeU64 bytes 24 g.blockCount
  let bytes := writeU32 bytes 32 maxObjects
  let bytes := writeU32 bytes 36 superblock.objectCount
  writeU64 bytes 40 dataStartLba

/-- The block of a superblock. -/
def encodeSuperblock (superblock : Superblock) : List UInt8 :=
  let bytes := writeHeader g superblock (List.replicate g.logicalBlockSize 0)
  let bytes := writeEntries bytes 0 superblock.objects
  writeU32 bytes 8 (checksum bytes).toNat

/-! ## Decoding -/

/-- Entry `index` of the object table, or `none` where no object is. -/
def decodeEntry (index : Nat) : Except CorruptFormatError (Option ObjectLayout) :=
  let start := headerBytes + entryBytes * index
  let flags := bytes.getD start 0
  if flags &&& ~~~entryPresentFlag ≠ 0 then .error .invalidHeader
  else if flags &&& entryPresentFlag = 0 then .ok none
  else
    let nameLen := readU16 bytes (start + 2)
    if nameLen = 0 ∨ nameLen > maxObjectNameBytes then .error .invalidNameEncoding
    else
      let field := slice bytes (start + 32) maxObjectNameBytes
      if (field.drop nameLen).any (· ≠ 0) then .error .invalidNameEncoding
      else match String.fromUTF8? ⟨(field.take nameLen).toArray⟩ with
        | none => .error .invalidNameEncoding
        | some name => .ok (some {
            id := UInt64.ofNat (readU64 bytes (start + 24))
            name := name
            data := []
            dataLen := readU32 bytes (start + 4)
            startLba := readU64 bytes (start + 8)
            blockCount := readU32 bytes (start + 16)
            dataChecksum := UInt32.ofNat (readU32 bytes (start + 20)) })

/-- The loop over the object table: `count` entries from `index` on. -/
def decodeEntries (bytes : List UInt8) (index : Nat) :
    Nat → Except CorruptFormatError (List ObjectLayout)
  | 0 => .ok []
  | count + 1 =>
    match decodeEntry bytes index with
    | .error error => .error error
    | .ok entry =>
      match decodeEntries bytes (index + 1) count with
      | .error error => .error error
      | .ok objects => .ok (entry.toList ++ objects)

/-- The checks of `validate_layouts` on one object after another; `before` are those before it. -/
def validateEntries (g : BlockGeometry) (arena : Nat × Nat) (before : List ObjectLayout) :
    List ObjectLayout → Except CorruptFormatError Unit
  | [] => .ok ()
  | left :: objects =>
    if before.any (·.id = left.id) then .error (.duplicateObjectId left.id)
    else if before.any (·.name = left.name) then .error .duplicateObjectName
    else if left.dataLen = 0 then
      if left.blockCount ≠ 0 ∨ left.startLba < arena.1 ∨ left.startLba > arena.2 then
        .error .invalidObjectExtent
      else validateEntries g arena (before ++ [left]) objects
    else if left.blockCount = 0 then .error .invalidObjectExtent
    else if left.dataLen > left.blockCount * g.logicalBlockSize then .error .invalidObjectLength
    else if left.startLba + left.blockCount ≥ 2 ^ 64 then .error .invalidObjectExtent
    else if left.startLba < arena.1 ∨ left.startLba + left.blockCount > arena.2 then
      .error .invalidObjectExtent
    else validateEntries g arena (before ++ [left]) objects

/-- The extents of the objects that have blocks, as (first, first after) pairs. -/
def extents (objects : List ObjectLayout) : List (Nat × Nat) :=
  (objects.filter (·.blockCount ≠ 0)).map fun object =>
    (object.startLba, object.startLba + object.blockCount)

/-- Whether one of the ranges ends after the next one starts. -/
def overlapping : List (Nat × Nat) → Bool
  | range :: next :: ranges => range.2 > next.1 || overlapping (next :: ranges)
  | _ => false

def validateLayouts (slot : Nat) (objects : List ObjectLayout) : Except CorruptFormatError Unit :=
  match validateEntries g (slotDataArena g slot) [] objects with
  | .error error => .error error
  | .ok () =>
    -- ranges that start together overlap in either order, so the sort need not be stable
    if overlapping ((extents objects).insertionSort fun left right => left.1 ≤ right.1) then
      .error .overlappingObjectExtents
    else .ok ()

def decodeSuperblock (slot : Nat) (bytes : List UInt8) : Except SlotDecodeError Superblock :=
  if readU32 bytes 0 ≠ storeMagic then .error (.incompatible .badMagic)
  else if readU16 bytes 4 ≠ storeVersion then
    .error (.incompatible (.unsupportedVersion (readU16 bytes 4)))
  else if (checksum bytes).toNat ≠ readU32 bytes 8 then .error (.corrupt .checksumMismatch)
  else
    let objectCount := readU32 bytes 36
    if readU32 bytes 20 ≠ g.logicalBlockSize ∨ readU64 bytes 24 ≠ g.blockCount ∨
        readU32 bytes 32 ≠ maxObjects ∨ readU64 bytes 40 ≠ dataStartLba ∨
        objectCount > maxObjects then
      .error (.corrupt .invalidHeader)
    else match decodeEntries bytes 0 maxObjects with
      | .error error => .error (.corrupt error)
      | .ok objects =>
        if objects.length ≠ objectCount then
          .error (.corrupt (.invalidObjectCount objectCount))
        else match validateLayouts g slot objects with
          | .error error => .error (.corrupt error)
          | .ok () => .ok ⟨readU64 bytes 12, objectCount, objects⟩

end CleanSlate.Store
