import CleanSlate.Lib.Medium

/-!
# Block devices

The contract of `block/src/lib.rs`: geometry, the validation of transfers, and a device that keeps
it. Writes go to a cache that `flush` makes durable; any operation may fail, and a write that fails
may have reached the cache in part.
-/

namespace CleanSlate.Store

open Lib

inductive BlockRequestError where
  | zeroBlocks
  | transferTooLarge (requestedBlocks maxBlocks : Nat)
  | bufferLengthNotAligned (bufferLen blockSize : Nat)
  | bufferLengthMismatch (bufferLen expectedLen : Nat)
  | rangeOutOfBounds (lba blocks blockCount : Nat)
  | bufferLengthOverflow
  deriving DecidableEq, Repr

inductive BlockUnsupportedError where
  | writeProtected
  | flushUnsupported
  deriving DecidableEq, Repr

inductive BlockTransportError where
  | deviceFault
  | timeout
  | resetRequired
  deriving DecidableEq, Repr

inductive BlockIoError where
  | invalidRequest (error : BlockRequestError)
  | unsupported (error : BlockUnsupportedError)
  | transport (error : BlockTransportError)
  deriving DecidableEq, Repr

/-! ## Geometry -/

/-- Geometry and transfer limits of a device, as `BlockGeometry::new` lets them be built. -/
structure BlockGeometry where
  logicalBlockSize : Nat
  blockCount : Nat
  maxTransferBlocks : Nat
  readOnly : Bool
  blockSize_pos : 0 < logicalBlockSize
  blockCount_pos : 0 < blockCount
  maxTransfer_pos : 0 < maxTransferBlocks
  blockSize_lt : logicalBlockSize < 2 ^ 32
  maxTransfer_lt : maxTransferBlocks < 2 ^ 32
  capacity_lt : logicalBlockSize * blockCount < 2 ^ 64

section

variable (self : BlockGeometry) (lba blocks bufferLen : Nat)

/-- The byte range of a transfer, if the request is in order. -/
def BlockGeometry.validateTransfer (isWrite : Bool) : Except BlockIoError (Nat × Nat) :=
  if blocks = 0 then .error (.invalidRequest .zeroBlocks)
  else if blocks > self.maxTransferBlocks then
    .error (.invalidRequest (.transferTooLarge blocks self.maxTransferBlocks))
  else if bufferLen % self.logicalBlockSize ≠ 0 then
    .error (.invalidRequest (.bufferLengthNotAligned bufferLen self.logicalBlockSize))
  -- `checked_mul` on a 64-bit `usize`
  else if self.logicalBlockSize * blocks ≥ 2 ^ 64 then
    .error (.invalidRequest .bufferLengthOverflow)
  else if bufferLen ≠ self.logicalBlockSize * blocks then
    .error (.invalidRequest (.bufferLengthMismatch bufferLen (self.logicalBlockSize * blocks)))
  else if lba + blocks ≥ 2 ^ 64 ∨ lba + blocks > self.blockCount then
    .error (.invalidRequest (.rangeOutOfBounds lba blocks self.blockCount))
  else if isWrite ∧ self.readOnly then .error (.unsupported .writeProtected)
  else if lba * self.logicalBlockSize + self.logicalBlockSize * blocks ≥ 2 ^ 64 then
    .error (.invalidRequest .bufferLengthOverflow)
  else .ok (lba * self.logicalBlockSize,
    lba * self.logicalBlockSize + self.logicalBlockSize * blocks)

def BlockGeometry.validateRead : Except BlockIoError (Nat × Nat) :=
  self.validateTransfer lba blocks bufferLen false

def BlockGeometry.validateWrite : Except BlockIoError (Nat × Nat) :=
  self.validateTransfer lba blocks bufferLen true

end

theorem BlockGeometry.validateTransfer_ok {g : BlockGeometry} {lba blocks bufferLen : Nat}
    {isWrite : Bool} (hpos : 0 < blocks) (hmax : blocks ≤ g.maxTransferBlocks)
    (hlen : bufferLen = g.logicalBlockSize * blocks) (hrn : lba + blocks ≤ g.blockCount)
    (hwr : isWrite → g.readOnly = false) :
    g.validateTransfer lba blocks bufferLen isWrite = .ok (lba * g.logicalBlockSize,
      lba * g.logicalBlockSize + g.logicalBlockSize * blocks) := by
  have hcp := g.capacity_lt
  have hend : lba * g.logicalBlockSize + g.logicalBlockSize * blocks ≤
      g.logicalBlockSize * g.blockCount := by
    rw [Nat.mul_comm lba, ← Nat.mul_add]
    exact Nat.mul_le_mul_left _ hrn
  have hcn : g.blockCount ≤ g.logicalBlockSize * g.blockCount :=
    Nat.le_mul_of_pos_left _ g.blockSize_pos
  subst hlen
  unfold validateTransfer
  rw [if_neg (by omega), if_neg (by omega), if_neg (by simp), if_neg (by omega), if_neg (by simp),
    if_neg (by omega), if_neg (by simpa using hwr), if_neg (by omega)]

/-! ## The device -/

/-- A failing write: the error it returns, and which of its blocks were taken all the same. -/
structure Fault where
  error : BlockIoError
  landed : Nat → Bool

/-- How the reads, writes and flushes to come turn out. One beyond its list succeeds. -/
structure Faults where
  reads : List (Option BlockIoError)
  writes : List (Option Fault)
  flushes : List (Option BlockIoError)

def Faults.none : Faults := ⟨[], [], []⟩

/-- A device: what is on the medium, the block writes its cache holds, oldest first, and the faults
it is going to have. -/
structure Device (g : BlockGeometry) where
  durable : Medium UInt8
  pending : List (BlockWrite UInt8)
  faults : Faults

namespace Device

variable {g : BlockGeometry} (self : Device g)

/-- What reads see: the medium under the writes in the cache. -/
def visible : Medium UInt8 := self.durable.apply g.logicalBlockSize self.pending

/-- A device that starts from a medium, with an empty cache. -/
def ofImage (image : Medium UInt8) : Device g := ⟨image, [], .none⟩

/-- How the next read turns out. -/
def nextRead : Option BlockIoError × Device g :=
  match self.faults.reads with
  | [] => (none, self)
  | fault :: reads => (fault, { self with faults := { self.faults with reads := reads } })

/-- How the next write turns out. -/
def nextWrite : Option Fault × Device g :=
  match self.faults.writes with
  | [] => (none, self)
  | fault :: writes => (fault, { self with faults := { self.faults with writes := writes } })

/-- How the next flush turns out. -/
def nextFlush : Option BlockIoError × Device g :=
  match self.faults.flushes with
  | [] => (none, self)
  | fault :: flushes => (fault, { self with faults := { self.faults with flushes := flushes } })

def readBlocks (lba blocks bufferLen : Nat) : Except BlockIoError (List UInt8) × Device g :=
  match g.validateRead lba blocks bufferLen with
  | .error error => (.error error, self)
  | .ok (start, stop) =>
    match self.nextRead with
    | (some error, device) => (.error error, device)
    | (none, device) => (.ok (self.visible.peek start (stop - start)), device)

def writeBlocks (lba blocks : Nat) (buffer : List UInt8) : Except BlockIoError Unit × Device g :=
  match g.validateWrite lba blocks buffer.length with
  | .error error => (.error error, self)
  | .ok _ =>
    let writes := blockWrites g.logicalBlockSize lba buffer blocks
    match self.nextWrite with
    | (some fault, device) => (.error fault.error, { device with
        pending := self.pending ++ writes.filter fun w => fault.landed w.lba })
    | (none, device) => (.ok (), { device with pending := self.pending ++ writes })

def flush : Except BlockIoError Unit × Device g :=
  match self.nextFlush with
  | (some error, device) => (.error error, device)
  | (none, device) => (.ok (), { device with
      durable := self.visible
      pending := [] })

/-- After a power loss the medium may have any of the writes in the cache. -/
def CrashImage (image : Medium UInt8) : Prop :=
  ∃ kept, kept.Sublist self.pending ∧ image = self.durable.apply g.logicalBlockSize kept

end Device

end CleanSlate.Store
