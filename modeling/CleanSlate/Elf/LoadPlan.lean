import CleanSlate.Lib.Bytes
import CleanSlate.Lib.Checks

/-!
# Load plans

`parse_load_plan` of `elf/src/plan.rs` and what it calls. A file is a list of bytes. The fields of the
file and of the policy are natural numbers, and the checked operations of `u64` and `usize` fail from
`2 ^ 64` on. The array of segments and its count are a list.
-/

namespace CleanSlate.Elf

open Lib

def elf64EhdrSize : Nat := 64
def elf64PhdrSize : Nat := 56
def emX8664 : Nat := 62
def etExec : Nat := 2
def etDyn : Nat := 3
def ptLoad : Nat := 1
def ptDynamic : Nat := 2
def ptInterp : Nat := 3
def maxLoadSegments : Nat := 16

inductive LoadPlanError where
  | truncatedHeader
  | badMagic
  | badClass
  | badEndian
  | badVersion
  | badMachine
  | truncatedProgramHeaders
  | badPhentsize
  | fileszGreaterThanMemsz
  | fileRangeOverflow
  | fileRangeBeyondEof
  | vaddrRangeOverflow
  | nonCanonicalVaddr
  | outOfWindowVaddr
  | pageZero
  | alignmentViolation
  | offsetVaddrCongruenceViolation
  | segmentOverlap
  | segmentBudgetExceeded
  | entryOutsideExecutableSegment
  | writeExecuteConflict
  | noLoadSegments
  | unsupportedEType
  | arithmeticOverflow
  deriving DecidableEq, Repr

/-- `u64::checked_add`. -/
def checkedAdd (a b : Nat) : Option Nat := if a + b < 2 ^ 64 then some (a + b) else none

/-- `u64::checked_mul`. -/
def checkedMul (a b : Nat) : Option Nat := if a * b < 2 ^ 64 then some (a * b) else none

/-- `u64::is_power_of_two`. -/
def isPowerOfTwo (n : Nat) : Bool := n ≠ 0 && n &&& (n - 1) = 0

/-! ## The header -/

/-- `read_u16`, `read_u32` and `read_u64`: `width` bytes, little-endian. -/
def readLe (width : Nat) (bytes : List UInt8) (offset : Nat) : Except LoadPlanError Nat := do
  let stop ← okOr (checkedAdd offset width) .arithmeticOverflow
  if stop > bytes.length then .error .truncatedHeader else .ok (ofLe (slice bytes offset width))

structure Elf64Header where
  eType : Nat
  eEntry : Nat
  ePhoff : Nat
  ePhentsize : Nat
  ePhnum : Nat

def Elf64Header.parse (bytes : List UInt8) : Except LoadPlanError Elf64Header :=
  if bytes.length < elf64EhdrSize then .error .truncatedHeader
  else if slice bytes 0 4 ≠ [0x7f, 0x45, 0x4c, 0x46] then .error .badMagic
  else if slice bytes 4 1 ≠ [2] then .error .badClass
  else if slice bytes 5 1 ≠ [1] then .error .badEndian
  else if slice bytes 6 1 ≠ [1] then .error .badVersion
  else do
    let eType ← readLe 2 bytes 0x10
    let eMachine ← readLe 2 bytes 0x12
    if eMachine ≠ emX8664 then .error .badMachine
    else do
      let eVersion ← readLe 4 bytes 0x14
      if eVersion ≠ 1 then .error .badVersion
      else do
        let eEntry ← readLe 8 bytes 0x18
        let ePhoff ← readLe 8 bytes 0x20
        let ePhentsize ← readLe 2 bytes 0x36
        let ePhnum ← readLe 2 bytes 0x38
        if ePhentsize ≠ elf64PhdrSize then .error .badPhentsize
        else .ok { eType, eEntry, ePhoff, ePhentsize, ePhnum }

/-! ## Segments -/

structure SegmentPermissions where
  read : Bool
  write : Bool
  execute : Bool
  deriving DecidableEq

def SegmentPermissions.fromPFlags (flags : Nat) : SegmentPermissions :=
  ⟨flags &&& 4 ≠ 0, flags &&& 2 ≠ 0, flags &&& 1 ≠ 0⟩

structure LoadSegment where
  vaddr : Nat
  memsz : Nat
  fileOffset : Nat
  filesz : Nat
  align : Nat
  perms : SegmentPermissions
  deriving DecidableEq

/-- `!(align - 1)` is `2 ^ 64 - align`. -/
def alignDown (value align : Nat) : Nat := value &&& (2 ^ 64 - align)

def alignUp (value align : Nat) : Except LoadPlanError Nat :=
  if !isPowerOfTwo align then .error .alignmentViolation
  else if value &&& (align - 1) = 0 then .ok value
  else okOr (checkedAdd value (align - (value &&& (align - 1)))) .arithmeticOverflow

/-- The first page of the segment and the number of its pages. -/
def LoadSegment.pageSpan (self : LoadSegment) (pageSize : Nat) : Except LoadPlanError (Nat × Nat) :=
  if !isPowerOfTwo pageSize then .error .alignmentViolation
  else if self.memsz = 0 then .ok (alignDown self.vaddr pageSize, 0)
  else do
    let stop ← okOr (checkedAdd self.vaddr self.memsz) .vaddrRangeOverflow
    let first := alignDown self.vaddr pageSize
    let lastExclusive ← alignUp stop pageSize
    if lastExclusive < first then .error .arithmeticOverflow
    else .ok (first, (lastExclusive - first) / pageSize)

structure LoadPlanPolicy where
  userVaLo : Nat
  userVaHi : Nat
  maxSegments : Nat
  pageSize : Nat
  rejectWriteExecute : Bool
  rejectPageZero : Bool
  allowedETypes : List Nat

def LoadPlanPolicy.linuxConventionalX8664 : LoadPlanPolicy where
  userVaLo := 0x10000
  userVaHi := 2 ^ 47
  maxSegments := maxLoadSegments
  pageSize := 4096
  rejectWriteExecute := true
  rejectPageZero := true
  allowedETypes := [etDyn, etExec]

def LoadPlanPolicy.allowsEType (self : LoadPlanPolicy) (eType : Nat) : Bool :=
  self.allowedETypes.isEmpty || self.allowedETypes.contains eType

def isCanonicalUser (addr : Nat) : Bool := addr < 2 ^ 47

def checkPageZero (segment : LoadSegment) (policy : LoadPlanPolicy) : Except LoadPlanError Unit :=
  if policy.rejectPageZero then do
    let (firstPage, pageCount) ← segment.pageSpan policy.pageSize
    if pageCount > 0 ∧ firstPage = 0 then .error .pageZero else .ok ()
  else .ok ()

def checkAlign (segment : LoadSegment) : Except LoadPlanError Unit :=
  if segment.align > 1 then
    if !isPowerOfTwo segment.align then .error .alignmentViolation
    else if segment.fileOffset % segment.align ≠ segment.vaddr % segment.align then
      .error .offsetVaddrCongruenceViolation
    else .ok ()
  else .ok ()

def validateSegment (segment : LoadSegment) (fileLen : Nat) (policy : LoadPlanPolicy) :
    Except LoadPlanError Unit :=
  if segment.filesz > segment.memsz then .error .fileszGreaterThanMemsz
  else do
    let fileEnd ← okOr (checkedAdd segment.fileOffset segment.filesz) .fileRangeOverflow
    if fileEnd > fileLen then .error .fileRangeBeyondEof
    else do
      let vaddrEnd ← okOr (checkedAdd segment.vaddr segment.memsz) .vaddrRangeOverflow
      if !isCanonicalUser segment.vaddr ∨ segment.memsz > 0 ∧ !isCanonicalUser (vaddrEnd - 1) then
        .error .nonCanonicalVaddr
      else if segment.vaddr < policy.userVaLo ∨ vaddrEnd > policy.userVaHi then
        .error .outOfWindowVaddr
      else do
        checkPageZero segment policy
        checkAlign segment
        if policy.rejectWriteExecute ∧ segment.perms.write ∧ segment.perms.execute then
          .error .writeExecuteConflict
        else .ok ()

/-! ## The plan -/

/-- The variables of the loop over the program headers. -/
structure PhdrScan where
  segments : List LoadSegment
  hasInterp : Bool
  hasDynamic : Bool

def readSegment (phdr : List UInt8) : Except LoadPlanError LoadSegment := do
  let pFlags ← readLe 4 phdr 4
  let pOffset ← readLe 8 phdr 0x08
  let pVaddr ← readLe 8 phdr 0x10
  let pFilesz ← readLe 8 phdr 0x20
  let pMemsz ← readLe 8 phdr 0x28
  let pAlign ← readLe 8 phdr 0x30
  return ⟨pVaddr, pMemsz, pOffset, pFilesz, pAlign, .fromPFlags pFlags⟩

/-- One turn of the loop. -/
def scanPhdr (bytes : List UInt8) (policy : LoadPlanPolicy) (header : Elf64Header) (scan : PhdrScan)
    (index : Nat) : Except LoadPlanError PhdrScan := do
  let skipped ← okOr (checkedMul index header.ePhentsize) .arithmeticOverflow
  let start ← okOr (checkedAdd header.ePhoff skipped) .arithmeticOverflow
  let stop ← okOr (checkedAdd start header.ePhentsize) .arithmeticOverflow
  if stop > bytes.length then .error .truncatedProgramHeaders
  else do
    let phdr := slice bytes start header.ePhentsize
    let pType ← (readLe 4 phdr 0).mapError fun _ => .truncatedProgramHeaders
    if pType = ptInterp then .ok { scan with hasInterp := true }
    else if pType = ptDynamic then .ok { scan with hasDynamic := true }
    else if pType ≠ ptLoad then .ok scan
    else do
      let segment ← (readSegment phdr).mapError fun _ => .truncatedProgramHeaders
      validateSegment segment bytes.length policy
      if scan.segments.length ≥ policy.maxSegments ∨ scan.segments.length ≥ maxLoadSegments then
        .error .segmentBudgetExceeded
      else .ok { scan with segments := scan.segments ++ [segment] }

def checkApart (left : LoadSegment) (leftEnd : Nat) (right : LoadSegment) :
    Except LoadPlanError Unit :=
  if right.memsz = 0 then .ok ()
  else do
    let rightEnd ← okOr (checkedAdd right.vaddr right.memsz) .vaddrRangeOverflow
    if left.vaddr < rightEnd ∧ right.vaddr < leftEnd then .error .segmentOverlap else .ok ()

def detectOverlaps : List LoadSegment → Except LoadPlanError Unit
  | [] => .ok ()
  | left :: rest =>
    if left.memsz = 0 then detectOverlaps rest
    else do
      let leftEnd ← okOr (checkedAdd left.vaddr left.memsz) .vaddrRangeOverflow
      rest.forM (checkApart left leftEnd)
      detectOverlaps rest

/-- `resolve_phdr_vaddr`: it looks for the first byte of the table only. -/
def resolvePhdrVaddr (phoff : Nat) : List LoadSegment → Option Nat
  | [] => none
  | segment :: rest => do
    let fileEnd ← checkedAdd segment.fileOffset segment.filesz
    if phoff ≥ segment.fileOffset ∧ phoff < fileEnd then
      checkedAdd segment.vaddr (phoff - segment.fileOffset)
    else resolvePhdrVaddr phoff rest

structure LoadPlan where
  entry : Nat
  phdrVaddr : Option Nat
  phoff : Nat
  phentsize : Nat
  phnum : Nat
  segments : List LoadSegment
  hasInterp : Bool
  hasDynamic : Bool
  eType : Nat
  deriving DecidableEq

def validateEntryInExecutable (entry : Nat) : List LoadSegment → Except LoadPlanError Unit
  | [] => .error .entryOutsideExecutableSegment
  | segment :: rest =>
    if !segment.perms.execute ∨ segment.memsz = 0 then validateEntryInExecutable entry rest
    else do
      let stop ← okOr (checkedAdd segment.vaddr segment.memsz) .vaddrRangeOverflow
      if entry ≥ segment.vaddr ∧ entry < stop then .ok () else validateEntryInExecutable entry rest

def parseLoadPlan (bytes : List UInt8) (policy : LoadPlanPolicy) : Except LoadPlanError LoadPlan :=
  if !isPowerOfTwo policy.pageSize then .error .alignmentViolation
  else if policy.userVaHi ≤ policy.userVaLo then .error .outOfWindowVaddr
  else do
    let header ← Elf64Header.parse bytes
    if !policy.allowsEType header.eType then .error .unsupportedEType
    else do
      let tableSize ← okOr (checkedMul header.ePhnum header.ePhentsize) .arithmeticOverflow
      let phdrTableEnd ← okOr (checkedAdd header.ePhoff tableSize) .arithmeticOverflow
      if phdrTableEnd > bytes.length then .error .truncatedProgramHeaders
      else if header.ePhoff % 8 ≠ 0 then .error .truncatedProgramHeaders
      else do
        let scan ← (List.range header.ePhnum).foldlM (scanPhdr bytes policy header) ⟨[], false, false⟩
        if scan.segments.length = 0 then .error .noLoadSegments
        else do
          detectOverlaps scan.segments
          validateEntryInExecutable header.eEntry scan.segments
          return {
            entry := header.eEntry
            phdrVaddr := resolvePhdrVaddr header.ePhoff scan.segments
            phoff := header.ePhoff
            phentsize := header.ePhentsize
            phnum := header.ePhnum
            segments := scan.segments
            hasInterp := scan.hasInterp
            hasDynamic := scan.hasDynamic
            eType := header.eType }

end CleanSlate.Elf
