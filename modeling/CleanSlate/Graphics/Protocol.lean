import CleanSlate.Graphics.Types
import CleanSlate.Lib.Wire

/-!
# Frames of the compositor protocol

What `graphics/src/protocol/mod.rs` and `frame_spec.rs` have for requests and events alike: the
header, the checks on it, and the table that says for every opcode what the object field may be
and which bytes are padding.
-/

namespace CleanSlate.Graphics

open Lib

def frameBytes : Nat := 64
def headerBytes : Nat := 12

structure Tagged (α : Type) where
  tag : UInt32
  message : α

/-- A decode failure with the raw header it echoes. -/
structure DecodeError where
  code : ProtocolError
  tag : UInt32
  opcode : UInt16
  object : UInt32
  deriving DecidableEq, Repr

/-! ## Opcodes -/

def opHello : UInt16 := 0x0001
def opRegisterBuffer : UInt16 := 0x0010
def opUnregisterBuffer : UInt16 := 0x0011
def opCreateSurface : UInt16 := 0x0020
def opDestroySurface : UInt16 := 0x0021
def opAssignRole : UInt16 := 0x0022
def opAttach : UInt16 := 0x0023
def opDamage : UInt16 := 0x0024
def opSetOpaqueRegion : UInt16 := 0x0025
def opSetInputRegion : UInt16 := 0x0026
def opCommit : UInt16 := 0x0027
def opCreateWindow : UInt16 := 0x0030
def opDestroyWindow : UInt16 := 0x0031
def opSetTitle : UInt16 := 0x0032
def opSetSizeLimits : UInt16 := 0x0033
def opShow : UInt16 := 0x0034
def opHide : UInt16 := 0x0035
def opBeginMove : UInt16 := 0x0036
def opBeginResize : UInt16 := 0x0037
def opAckConfigure : UInt16 := 0x0038

def opWelcome : UInt16 := 0x8001
def opError : UInt16 := 0x8002
def opBufferRegistered : UInt16 := 0x8010
def opBufferReleased : UInt16 := 0x8011
def opBufferUnregistered : UInt16 := 0x8012
def opSurfaceCreated : UInt16 := 0x8020
def opFrameDone : UInt16 := 0x8021
def opWindowCreated : UInt16 := 0x8030
def opConfigure : UInt16 := 0x8031
def opCloseRequested : UInt16 := 0x8032
def opKeyboardFocus : UInt16 := 0x8040
def opKey : UInt16 := 0x8041
def opModifiersChanged : UInt16 := 0x8042
def opPointerEnter : UInt16 := 0x8050
def opPointerLeave : UInt16 := 0x8051
def opPointerMotion : UInt16 := 0x8052
def opPointerButton : UInt16 := 0x8053
def opPointerAxis : UInt16 := 0x8054
def opInputReset : UInt16 := 0x8060

/-! ## Fields -/

variable (out bytes : List UInt8) (off : Nat)

def readU8 : UInt8 := Wire.read bytes off
def readU16Le : UInt16 := Wire.read bytes off
def readU32Le : UInt32 := Wire.read bytes off
def readU64Le : UInt64 := Wire.read bytes off
def readI32Le : Int32 := Wire.read bytes off

def writeU8 (v : UInt8) : List UInt8 := Wire.write out off v
def writeU16Le (v : UInt16) : List UInt8 := Wire.write out off v
def writeU32Le (v : UInt32) : List UInt8 := Wire.write out off v
def writeU64Le (v : UInt64) : List UInt8 := Wire.write out off v
def writeI32Le (v : Int32) : List UInt8 := Wire.write out off v

def rawHeader : UInt16 × UInt32 × UInt32 :=
  if bytes.length ≥ headerBytes then (readU16Le bytes 0, readU32Le bytes 4, readU32Le bytes 8)
  else (0, 0, 0)

def decodeError (code : ProtocolError) : DecodeError :=
  let (opcode, tag, object) := rawHeader bytes
  { code, tag, opcode, object }

def checkFrameLen : Except DecodeError Unit :=
  if bytes.length ≠ frameBytes then .error (decodeError bytes .malformedFrame) else .ok ()

def checkHeaderReserved : Except DecodeError Unit :=
  if readU8 bytes 2 ≠ 0 then .error (decodeError bytes .reservedBitsSet)
  else if readU8 bytes 3 ≠ 0 then .error (decodeError bytes .reservedBitsSet)
  else .ok ()

def checkRangeZero (first last : Nat) : Except ProtocolError Unit :=
  if (slice bytes first (last - first)).any (· ≠ 0) then .error .reservedBitsSet else .ok ()

def decodeBool (raw : UInt8) : Except ProtocolError Bool :=
  if raw = 0 then .ok false
  else if raw = 1 then .ok true
  else .error .malformedFrame

/-- `u8::from(bool)`. -/
def boolByte (b : Bool) : UInt8 := if b then 1 else 0

variable (raw : UInt32)

def serialRequiredRequest : Except ProtocolError Serial :=
  if raw = 0 then .error .serialMismatch else .ok ⟨raw⟩

def serialRequiredEvent : Except ProtocolError Serial :=
  if raw = 0 then .error .malformedFrame else .ok ⟨raw⟩

def serialOptional : Option Serial := if raw = 0 then none else some ⟨raw⟩

def decodeObjectRequired : Except ProtocolError ObjectId :=
  if raw = 0 then .error .invalidObject
  else (ObjectId.decode raw).mapError fun _ => .invalidObject

def decodeObjectOptional : Except ProtocolError (Option ObjectId) :=
  (ObjectId.decodeOptional raw).mapError fun _ => .invalidObject

def objectMustBeZero : Except ProtocolError Unit :=
  if raw ≠ 0 then .error .reservedBitsSet else .ok ()

def requiredSurface (object : UInt32) : Except ProtocolError SurfaceId :=
  (decodeObjectRequired object).map SurfaceId.mk

def requiredWindow (object : UInt32) : Except ProtocolError WindowId :=
  (decodeObjectRequired object).map WindowId.mk

def requiredBuffer (object : UInt32) : Except ProtocolError ClientBufferId :=
  (decodeObjectRequired object).map ClientBufferId.mk

/-! ## Opcode table -/

inductive ObjectRule where
  | mustBeZero
  | required
  | optional
  | rawEcho
  deriving DecidableEq, Repr

structure OpcodeSpec where
  opcode : UInt16
  object : ObjectRule
  pads : List (Nat × Nat)
  deriving DecidableEq, Repr

def lookupSpec (specs : List OpcodeSpec) (opcode : UInt16) : Option OpcodeSpec :=
  specs.find? (·.opcode = opcode)

def applyObjectRule (rule : ObjectRule) (object : UInt32) : Except ProtocolError Unit :=
  match rule with
  | .mustBeZero => objectMustBeZero object
  | .required => do
    let _ ← decodeObjectRequired object
    return ()
  | .optional => do
    let _ ← decodeObjectOptional object
    return ()
  | .rawEcho => .ok ()

def requestSpecs : List OpcodeSpec := [ ⟨opHello, .mustBeZero, [(24, 64)]⟩,
  ⟨opRegisterBuffer, .mustBeZero, [(25, 64)]⟩,
  ⟨opUnregisterBuffer, .required, [(12, 64)]⟩,
  ⟨opCreateSurface, .mustBeZero, [(12, 64)]⟩,
  ⟨opDestroySurface, .required, [(12, 64)]⟩,
  ⟨opAssignRole, .required, [(13, 16), (20, 64)]⟩,
  ⟨opAttach, .required, [(18, 64)]⟩,
  ⟨opDamage, .required, [(13, 16), (56, 64)]⟩,
  ⟨opSetOpaqueRegion, .required, [(14, 16)]⟩,
  ⟨opSetInputRegion, .required, [(14, 16)]⟩,
  ⟨opCommit, .required, [(14, 16), (20, 64)]⟩,
  ⟨opCreateWindow, .required, [(12, 64)]⟩,
  ⟨opDestroyWindow, .required, [(12, 64)]⟩,
  ⟨opSetTitle, .required, [(53, 64)]⟩,
  ⟨opSetSizeLimits, .required, [(28, 64)]⟩,
  ⟨opShow, .required, [(12, 64)]⟩,
  ⟨opHide, .required, [(12, 64)]⟩,
  ⟨opBeginMove, .required, [(16, 64)]⟩,
  ⟨opBeginResize, .required, [(17, 64)]⟩,
  ⟨opAckConfigure, .required, [(16, 64)]⟩]

def eventSpecs : List OpcodeSpec := [ ⟨opWelcome, .mustBeZero, [(41, 42), (56, 64)]⟩,
  ⟨opError, .rawEcho, [(16, 64)]⟩,
  ⟨opBufferRegistered, .required, [(12, 64)]⟩,
  ⟨opBufferReleased, .required, [(12, 64)]⟩,
  ⟨opBufferUnregistered, .required, [(12, 64)]⟩,
  ⟨opSurfaceCreated, .required, [(12, 64)]⟩,
  ⟨opFrameDone, .required, [(28, 64)]⟩,
  ⟨opWindowCreated, .required, [(12, 64)]⟩,
  ⟨opConfigure, .required, [(27, 28), (40, 64)]⟩,
  ⟨opCloseRequested, .required, [(12, 64)]⟩,
  ⟨opKeyboardFocus, .optional, [(12, 64)]⟩,
  ⟨opKey, .mustBeZero, [(27, 28), (30, 64)]⟩,
  ⟨opModifiersChanged, .mustBeZero, [(14, 64)]⟩,
  ⟨opPointerEnter, .required, [(24, 64)]⟩,
  ⟨opPointerLeave, .required, [(16, 64)]⟩,
  ⟨opPointerMotion, .mustBeZero, [(28, 64)]⟩,
  ⟨opPointerButton, .mustBeZero, [(27, 64)]⟩,
  ⟨opPointerAxis, .mustBeZero, [(28, 64)]⟩,
  ⟨opInputReset, .mustBeZero, [(12, 64)]⟩]

def runDecodePrelude (specs : List OpcodeSpec) (opcode : UInt16)
    (object : UInt32) : Except ProtocolError Unit := do
  let spec ← okOr (lookupSpec specs opcode) .unknownOpcode
  applyObjectRule spec.object object
  spec.pads.forM fun pad => checkRangeZero bytes pad.1 pad.2

end CleanSlate.Graphics
