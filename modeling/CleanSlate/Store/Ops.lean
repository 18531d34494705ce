import CleanSlate.Store.Format

/-!
# The object store

Mounting, staging and committing, after `store/src/lib.rs`. Objects are staged in memory; a commit
writes all of them to the arena of the slot that is not active, then that slot's superblock, and
flushes.
-/

namespace CleanSlate.Store

open Lib

variable {g : BlockGeometry}

/-! ## Payloads -/

/-- The chunks of a transfer of `total` blocks: first block and length of each. -/
def chunks (maxBlocks total : Nat) : List (Nat × Nat) :=
  (List.range ((total + (maxBlocks - 1)) / maxBlocks)).map fun index =>
    (index * maxBlocks, min maxBlocks (total - index * maxBlocks))

/-- The buffer of one chunk of an object's payload, zero beyond the payload's end. -/
def chunkBuffer (g : BlockGeometry) (data : List UInt8) (chunk : Nat × Nat) : List UInt8 :=
  let buffer := List.replicate (chunk.2 * g.logicalBlockSize) 0
  let dataStart := chunk.1 * g.logicalBlockSize
  let dataEnd := min data.length (dataStart + buffer.length)
  if dataStart < dataEnd then splice buffer 0 (slice data dataStart (dataEnd - dataStart))
  else buffer

/-- The loop of `write_object_data` over the chunks. -/
def writeChunks (object : ObjectLayout) (device : Device g) :
    List (Nat × Nat) → Except BlockIoError Unit × Device g
  | [] => (.ok (), device)
  | chunk :: rest =>
    match device.writeBlocks (object.startLba + chunk.1) chunk.2
        (chunkBuffer g object.data chunk) with
    | (.error error, device) => (.error error, device)
    | (.ok (), device) => writeChunks object device rest

variable (device : Device g)

def writeObjectData (object : ObjectLayout) : Except BlockIoError Unit × Device g :=
  if object.blockCount = 0 then (.ok (), device)
  else writeChunks object device (chunks g.maxTransferBlocks object.blockCount)

/-- The loop of `read_blocks_chunked` over the chunks, into `buffer`. -/
def readChunks (startLba : Nat) (device : Device g) (buffer : List UInt8) :
    List (Nat × Nat) → Except BlockIoError (List UInt8) × Device g
  | [] => (.ok buffer, device)
  | chunk :: rest =>
    match device.readBlocks (startLba + chunk.1) chunk.2 (chunk.2 * g.logicalBlockSize) with
    | (.error error, device) => (.error error, device)
    | (.ok bytes, device) =>
      readChunks startLba device (splice buffer (chunk.1 * g.logicalBlockSize) bytes) rest

def readObjectData (object : ObjectLayout) : Except StoreError (List UInt8) × Device g :=
  if object.blockCount = 0 then (.ok [], device)
  else
    match readChunks object.startLba device
        (List.replicate (object.blockCount * g.logicalBlockSize) 0)
        (chunks g.maxTransferBlocks object.blockCount) with
    | (.error error, device) => (.error (.block error), device)
    | (.ok bytes, device) =>
      let bytes := bytes.take object.dataLen
      if checksum bytes ≠ object.dataChecksum then
        (.error (.corrupt .objectChecksumMismatch), device)
      else (.ok bytes, device)

def loadObjects (device : Device g) :
    List ObjectLayout → Except StoreError (List StoredObject) × Device g
  | [] => (.ok [], device)
  | layout :: layouts =>
    match readObjectData device layout with
    | (.error error, device) => (.error error, device)
    | (.ok data, device) =>
      match loadObjects device layouts with
      | (.error error, device) => (.error error, device)
      | (.ok objects, device) => (.ok (⟨layout.id, layout.name, data⟩ :: objects), device)

/-! ## Superblocks -/

inductive SlotLoadError where
  | block (error : BlockIoError)
  | decode (error : SlotDecodeError)
  deriving DecidableEq, Repr

def writeSuperblock (slot : Nat) (superblock : Superblock) : Except BlockIoError Unit × Device g :=
  device.writeBlocks slot 1 (encodeSuperblock g superblock)

def readSuperblockSlot (slot : Nat) : Except SlotLoadError Superblock × Device g :=
  match device.readBlocks slot 1 g.logicalBlockSize with
  | (.error error, device) => (.error (.block error), device)
  | (.ok bytes, device) =>
    match decodeSuperblock g slot bytes with
    | .error error => (.error (.decode error), device)
    | .ok superblock => (.ok superblock, device)

/-- The last error of each kind met while looking for a committed state. -/
structure SlotErrors where
  block : Option BlockIoError
  incompatible : Option IncompatibleFormatError
  corrupt : Option CorruptFormatError

def SlotErrors.none : SlotErrors := ⟨.none, .none, .none⟩

/-- The error `select_committed_state` reports when no slot can be used. -/
def SlotErrors.report (self : SlotErrors) : StoreError :=
  match self.block, self.incompatible, self.corrupt with
  | some error, _, _ => .block error
  | .none, some error, _ => .incompatible error
  | .none, .none, some error => .corrupt error
  | .none, .none, .none => .incompatible .badMagic

/-- Sorts the result of reading a slot into the candidates or the errors. -/
def collectSlot (state : List (Nat × Superblock) × SlotErrors)
    (slot : Nat × Except SlotLoadError Superblock) : List (Nat × Superblock) × SlotErrors :=
  match slot.2 with
  | .ok superblock => (state.1 ++ [(slot.1, superblock)], state.2)
  | .error (.block error) => (state.1, { state.2 with block := some error })
  | .error (.decode (.incompatible error)) =>
    (state.1, { state.2 with incompatible := some error })
  | .error (.decode (.corrupt error)) => (state.1, { state.2 with corrupt := some error })

/-- Newer generations first; of two equal ones, the lower slot. -/
def Newer (left right : Nat × Superblock) : Prop := right.2.generation < left.2.generation ∨
    right.2.generation = left.2.generation ∧ left.1 ≤ right.1

instance : DecidableRel Newer := fun _ _ => inferInstanceAs (Decidable (_ ∨ _))

/-- The first candidate whose objects can be loaded. -/
def trySlots (device : Device g) (errors : SlotErrors) : List (Nat × Superblock) →
      Except StoreError (Nat × Superblock × List StoredObject) × Device g
  | [] => (.error errors.report, device)
  | (slot, superblock) :: rest =>
    match loadObjects device superblock.objects with
    | (.ok objects, device) => (.ok (slot, superblock, objects), device)
    | (.error (.corrupt error), device) =>
      trySlots device { errors with corrupt := some error } rest
    | (.error (.block error), device) => trySlots device { errors with block := some error } rest
    | (.error (.incompatible error), device) =>
      trySlots device { errors with incompatible := some error } rest
    | (.error other, device) => (.error other, device)

def selectCommittedState : Except StoreError (Nat × Superblock × List StoredObject) × Device g :=
  let (slot0, device) := readSuperblockSlot device 0
  let (slot1, device) := readSuperblockSlot device 1
  let (candidates, errors) := [(0, slot0), (1, slot1)].foldl collectSlot ([], .none)
  trySlots device errors (candidates.insertionSort Newer)

/-! ## The store -/

structure ObjectStore (g : BlockGeometry) where
  device : Device g
  generation : Nat
  activeSlot : Nat
  objects : List StoredObject

namespace ObjectStore

def format (device : Device g) : Except StoreError (ObjectStore g) :=
  match validateGeometry g with
  | .error error => .error error
  | .ok _ =>
    match writeSuperblock device 0 ⟨0, 0, []⟩ with
    | (.error error, _) => .error (.block error)
    | (.ok (), device) =>
      match writeSuperblock device 1 ⟨0, 0, []⟩ with
      | (.error error, _) => .error (.block error)
      | (.ok (), device) =>
        match device.flush with
        | (.error error, _) => .error (.block error)
        | (.ok (), device) => .ok ⟨device, 0, 0, []⟩

def mount (device : Device g) : Except StoreError (ObjectStore g) :=
  match validateGeometry g with
  | .error error => .error error
  | .ok _ =>
    match selectCommittedState device with
    | (.error error, _) => .error error
    | (.ok (activeSlot, superblock, objects), device) =>
      .ok ⟨device, superblock.generation, activeSlot, objects⟩

/-- Where `write_object` puts the object: over the one with its id or its name, or at the end. -/
def targetIndex (objects : List StoredObject) (id : UInt64) (name : String) :
    Except StoreError (Option Nat) :=
  match objects.findIdx? (·.id = id), objects.findIdx? (·.name = name) with
  | some left, some right =>
    if left = right then .ok (some left) else .error .identityConflict
  | some index, none | none, some index => .ok (some index)
  | none, none => .ok none

def writeObject (self : ObjectStore g) (id : UInt64) (name : String) (data : List UInt8) :
    Except StoreError Unit × ObjectStore g :=
  match validateObjectName name with
  | .error error => (.error error, self)
  | .ok () =>
    if data.length > u32Max then (.error (.objectTooLarge data.length u32Max), self)
    else match targetIndex self.objects id name with
      | .error error => (.error error, self)
      | .ok (some index) =>
        (.ok (), { self with objects := self.objects.set index ⟨id, name, data⟩ })
      | .ok none =>
        if self.objects.length = maxObjects then (.error (.objectTableFull maxObjects), self)
        else (.ok (), { self with objects := self.objects ++ [⟨id, name, data⟩] })

def readObjectById (self : ObjectStore g) (id : UInt64) : Except StoreError (List UInt8) :=
  match self.objects.find? (·.id = id) with
  | some object => .ok object.data
  | none => .error .notFound

def readObjectByName (self : ObjectStore g) (name : String) : Except StoreError (List UInt8) :=
  match self.objects.find? (·.name = name) with
  | some object => .ok object.data
  | none => .error .notFound

/-- The loop of `commit` over the layouts. -/
def writeLayouts (device : Device g) : List ObjectLayout → Except BlockIoError Unit × Device g
  | [] => (.ok (), device)
  | object :: objects =>
    match writeObjectData device object with
    | (.error error, device) => (.error error, device)
    | (.ok (), device) => writeLayouts device objects

def commit (self : ObjectStore g) : Except StoreError Unit × ObjectStore g :=
  let nextSlot := (self.activeSlot + 1) % superblockSlots
  if self.generation + 1 ≥ 2 ^ 64 then (.error .generationExhausted, self)
  else match buildObjectLayout g nextSlot self.objects with
    | .error error => (.error error, self)
    | .ok layout =>
      match writeLayouts self.device layout with
      | (.error error, device) => (.error (.block error), { self with device := device })
      | (.ok (), device) =>
        match writeSuperblock device nextSlot ⟨self.generation + 1, layout.length, layout⟩ with
        | (.error error, device) => (.error (.block error), { self with device := device })
        | (.ok (), device) =>
          match device.flush with
          | (.error error, device) => (.error (.block error), { self with device := device })
          | (.ok (), device) => (.ok (), { self with
              device := device
              generation := self.generation + 1
              activeSlot := nextSlot })

end ObjectStore

/-! ## The store as a transition system -/

/-- A call on a mounted store. -/
inductive StoreOp where
  | writeObject (id : UInt64) (name : String) (data : List UInt8)
  | commit

def storeStep (store : ObjectStore g) : StoreOp → Except StoreError Unit × ObjectStore g
  | .writeObject id name data => store.writeObject id name data
  | .commit => store.commit

end CleanSlate.Store
