import CleanSlate.Lib.Checks
import Mathlib.Data.UInt

/-!
# Values of the graphics protocol

Identities, geometry, pixel formats, input and window values of `graphics/src`. A type whose fields
are private in the source carries what its constructors check: such a value cannot be built
otherwise. `WindowTitle::from_str_truncating` cuts its argument at a character boundary, so that
its results satisfy what `from_wire` checks.
-/

namespace CleanSlate.Graphics

open Lib

/-! ## Errors -/

inductive GeometryError where
  | overflow
  | emptyExtent
  | extentTooLarge
  | strideTooSmall
  | strideTooLarge
  | strideMisaligned
  | bufferTooLarge
  | outOfBounds
  deriving DecidableEq, Repr

inductive LookupError where
  | invalid
  | stale
  | retired
  deriving DecidableEq, Repr

inductive ProtocolError where
  | unsupportedVersion
  | unknownOpcode
  | malformedFrame
  | reservedBitsSet
  | invalidObject
  | staleObject
  | wrongObjectKind
  | limitExceeded
  | roleForbidden
  | roleAlreadyAssigned
  | invalidParent
  | invalidFormat
  | invalidScale
  | invalidLayout
  | bufferTooSmall
  | bufferBusy
  | transferMissing
  | transferWrongClass
  | invalidDamage
  | invalidRegion
  | notConfigured
  | serialMismatch
  | unsupportedFeature
  | notPermitted
  deriving DecidableEq, Repr

def ProtocolError.code : ProtocolError → UInt16
  | unsupportedVersion => 1
  | unknownOpcode => 2
  | malformedFrame => 3
  | reservedBitsSet => 4
  | invalidObject => 10
  | staleObject => 11
  | wrongObjectKind => 12
  | limitExceeded => 13
  | roleForbidden => 20
  | roleAlreadyAssigned => 21
  | invalidParent => 22
  | invalidFormat => 30
  | invalidScale => 31
  | invalidLayout => 32
  | bufferTooSmall => 33
  | bufferBusy => 34
  | transferMissing => 35
  | transferWrongClass => 36
  | invalidDamage => 40
  | invalidRegion => 41
  | notConfigured => 42
  | serialMismatch => 43
  | unsupportedFeature => 50
  | notPermitted => 51

def ProtocolError.fromU16 (raw : UInt16) : Option ProtocolError :=
  if raw = 1 then some .unsupportedVersion
  else if raw = 2 then some .unknownOpcode
  else if raw = 3 then some .malformedFrame
  else if raw = 4 then some .reservedBitsSet
  else if raw = 10 then some .invalidObject
  else if raw = 11 then some .staleObject
  else if raw = 12 then some .wrongObjectKind
  else if raw = 13 then some .limitExceeded
  else if raw = 20 then some .roleForbidden
  else if raw = 21 then some .roleAlreadyAssigned
  else if raw = 22 then some .invalidParent
  else if raw = 30 then some .invalidFormat
  else if raw = 31 then some .invalidScale
  else if raw = 32 then some .invalidLayout
  else if raw = 33 then some .bufferTooSmall
  else if raw = 34 then some .bufferBusy
  else if raw = 35 then some .transferMissing
  else if raw = 36 then some .transferWrongClass
  else if raw = 40 then some .invalidDamage
  else if raw = 41 then some .invalidRegion
  else if raw = 42 then some .notConfigured
  else if raw = 43 then some .serialMismatch
  else if raw = 50 then some .unsupportedFeature
  else if raw = 51 then some .notPermitted
  else none

/-! ## Limits -/

def maxSurfaceExtent : Nat := 4096
def maxStrideBytes : Nat := maxSurfaceExtent * 4
def maxBufferBytes : Nat := 8 * 1024 * 1024
def maxTitleBytes : Nat := 40

/-- `i32::MAX`. -/
def i32Max : Int := 2 ^ 31 - 1

/-! ## Identities -/

/-- A slot index in the low byte, and a generation that is not zero above it. -/
def decodeIndexGeneration (raw : UInt32) : Except LookupError (UInt8 × UInt32) :=
  let generation := raw >>> 8
  if generation = 0 ∨ generation > 0x00FFFFFF then .error .invalid
  else .ok ((raw &&& 0xFF).toUInt8, generation)

/-- The raw value of an identity. -/
def IsIdentity (raw : UInt32) : Prop := ∃ parts, decodeIndexGeneration raw = .ok parts

/-- An object reference minted by the compositor. -/
structure ObjectId where
  raw : UInt32
  valid : IsIdentity raw
  deriving DecidableEq

def ObjectId.encode (self : ObjectId) : UInt32 := self.raw

def ObjectId.decode (raw : UInt32) : Except LookupError ObjectId :=
  match h : decodeIndexGeneration raw with
  | .ok parts => .ok ⟨raw, parts, h⟩
  | .error error => .error error

def ObjectId.decodeOptional (raw : UInt32) : Except LookupError (Option ObjectId) :=
  if raw = 0 then .ok none else (ObjectId.decode raw).map some

structure SurfaceId where
  object : ObjectId
  deriving DecidableEq

structure WindowId where
  object : ObjectId
  deriving DecidableEq

structure ClientBufferId where
  object : ObjectId
  deriving DecidableEq

/-- A physical output: index and backend epoch. -/
structure OutputId where
  raw : UInt32
  valid : IsIdentity raw
  deriving DecidableEq

def OutputId.encode (self : OutputId) : UInt32 := self.raw

def OutputId.decode (raw : UInt32) : Except LookupError OutputId :=
  match h : decodeIndexGeneration raw with
  | .ok parts => .ok ⟨raw, parts, h⟩
  | .error error => .error error

structure Serial where
  raw : UInt32
  deriving DecidableEq, Repr

/-! ## Geometry -/

structure Size where
  width : UInt32
  height : UInt32
  deriving DecidableEq, Repr

structure Rect where
  x : Int32
  y : Int32
  width : UInt32
  height : UInt32
  deriving DecidableEq

structure BufferRect where
  x : UInt16
  y : UInt16
  width : UInt16
  height : UInt16
  deriving DecidableEq, Repr

/-- A coordinate in signed 24.8 fixed point. -/
structure Fixed24_8 where
  raw : Int32
  deriving DecidableEq

structure Scale120 where
  raw : UInt16
  deriving DecidableEq, Repr

/-- `start.checked_add(extent)` for an `i32` and a `u32` that is first made an `i32`. -/
def checkedEnd (start : Int32) (extent : UInt32) : Except GeometryError Int32 :=
  if (extent.toNat : Int) > i32Max then .error .overflow
  else if start.toInt + extent.toNat > i32Max then .error .overflow
  else .ok (Int32.ofInt (start.toInt + extent.toNat))

def Rect.checkedRight (self : Rect) : Except GeometryError Int32 := checkedEnd self.x self.width

def Rect.checkedBottom (self : Rect) : Except GeometryError Int32 := checkedEnd self.y self.height

def Rect.validate (self : Rect) : Except GeometryError Rect :=
  if (self.width.toNat : Int) > i32Max ∨ (self.height.toNat : Int) > i32Max then .error .overflow
  else do
    let _ ← self.checkedRight
    let _ ← self.checkedBottom
    return self

/-! ## Pixels -/

inductive PixelFormat where
  | xrgb8888
  | argb8888Premultiplied
  deriving DecidableEq, Repr

def PixelFormat.toU8 : PixelFormat → UInt8
  | xrgb8888 => 1
  | argb8888Premultiplied => 2

def PixelFormat.fromU8 (raw : UInt8) : Option PixelFormat :=
  if raw = 1 then some .xrgb8888
  else if raw = 2 then some .argb8888Premultiplied
  else none

inductive ColorSpace where
  | srgb
  deriving DecidableEq, Repr

/-- The checks of `BufferLayout::new`. The products stay below `2 ^ 64` once the extents are
checked, so that `checked_mul` does not fail. -/
def checkLayout (width height strideBytes : UInt32) : Except GeometryError Unit :=
  if width = 0 ∨ height = 0 then .error .emptyExtent
  else if width.toNat > maxSurfaceExtent ∨ height.toNat > maxSurfaceExtent then
    .error .extentTooLarge
  else if strideBytes.toNat % 4 ≠ 0 then .error .strideMisaligned
  else if strideBytes.toNat < width.toNat * 4 then .error .strideTooSmall
  else if strideBytes.toNat > maxStrideBytes then .error .strideTooLarge
  else if strideBytes.toNat * height.toNat > maxBufferBytes then .error .bufferTooLarge
  else .ok ()

structure BufferLayout where
  width : UInt32
  height : UInt32
  strideBytes : UInt32
  format : PixelFormat
  valid : checkLayout width height strideBytes = .ok ()
  deriving DecidableEq

def BufferLayout.new (width height strideBytes : UInt32) (format : PixelFormat) :
    Except GeometryError BufferLayout :=
  match h : checkLayout width height strideBytes with
  | .ok () => .ok ⟨width, height, strideBytes, format, h⟩
  | .error error => .error error

/-! ## Roles and windows -/

inductive SurfaceRole where
  | toplevel
  | popup
  | background
  | shellPanel
  | systemOverlay
  | cursor
  | subsurface
  deriving DecidableEq, Repr

def SurfaceRole.asU8 : SurfaceRole → UInt8
  | toplevel => 1
  | popup => 2
  | background => 3
  | shellPanel => 4
  | systemOverlay => 5
  | cursor => 6
  | subsurface => 7

def SurfaceRole.fromU8 (raw : UInt8) : Option SurfaceRole :=
  if raw = 1 then some .toplevel
  else if raw = 2 then some .popup
  else if raw = 3 then some .background
  else if raw = 4 then some .shellPanel
  else if raw = 5 then some .systemOverlay
  else if raw = 6 then some .cursor
  else if raw = 7 then some .subsurface
  else none

def WindowStates.all : UInt32 := 0x1F

structure WindowStates where
  bits : UInt32
  valid : bits &&& ~~~WindowStates.all = 0
  deriving DecidableEq

def WindowStates.fromBits (bits : UInt32) : Option WindowStates :=
  if h : bits &&& ~~~WindowStates.all = 0 then some ⟨bits, h⟩ else none

inductive DecorationMode where
  | server
  | client
  deriving DecidableEq, Repr

def DecorationMode.asU8 : DecorationMode → UInt8
  | server => 1
  | client => 2

def DecorationMode.fromU8 (raw : UInt8) : Option DecorationMode :=
  if raw = 1 then some .server
  else if raw = 2 then some .client
  else none

/-- One edge, or two that meet. -/
def IsResizeEdges (raw : UInt8) : Prop := raw ∈ ([1, 2, 4, 8, 5, 6, 9, 10] : List UInt8)
deriving Decidable

structure ResizeEdges where
  bits : UInt8
  valid : IsResizeEdges bits
  deriving DecidableEq

def ResizeEdges.fromU8 (raw : UInt8) : Option ResizeEdges :=
  if h : IsResizeEdges raw then some ⟨raw, h⟩ else none

/-- The checks of `WindowTitle::from_wire`. -/
def checkTitle (len : UInt8) (bytes : Fin maxTitleBytes → UInt8) : Except ProtocolError Unit :=
  if len.toNat > maxTitleBytes then .error .malformedFrame
  else if ((List.ofFn bytes).drop len.toNat).any (· ≠ 0) then .error .reservedBitsSet
  else if ¬(ByteArray.mk ((List.ofFn bytes).take len.toNat).toArray).IsValidUTF8 then
    .error .malformedFrame
  else .ok ()

/-- A title, with the rest of its array zero. -/
structure WindowTitle where
  bytes : Fin maxTitleBytes → UInt8
  len : UInt8
  valid : checkTitle len bytes = .ok ()

def WindowTitle.fromWire (len : UInt8) (bytes : Fin maxTitleBytes → UInt8) :
    Except ProtocolError WindowTitle :=
  match h : checkTitle len bytes with
  | .ok () => .ok ⟨bytes, len, h⟩
  | .error error => .error error

/-! ## Input -/

structure KeyUsage where
  raw : UInt16
  deriving DecidableEq, Repr

def KeyUsage.isValid (self : KeyUsage) : Bool :=
  let v := self.raw
  (v ≥ 0x04 && v ≤ 0xA4) || (v ≥ 0xB0 && v ≤ 0xDD) || (v ≥ 0xE0 && v ≤ 0xE7)

inductive KeyState where
  | released
  | pressed
  deriving DecidableEq, Repr

def KeyState.asU8 : KeyState → UInt8
  | released => 0
  | pressed => 1

def KeyState.fromU8 (raw : UInt8) : Option KeyState :=
  if raw = 0 then some .released
  else if raw = 1 then some .pressed
  else none

inductive PointerButton where
  | left
  | right
  | middle
  | back
  | forward
  deriving DecidableEq, Repr

def PointerButton.asU16 : PointerButton → UInt16
  | left => 1
  | right => 2
  | middle => 3
  | back => 4
  | forward => 5

def PointerButton.fromU16 (raw : UInt16) : Option PointerButton :=
  if raw = 1 then some .left
  else if raw = 2 then some .right
  else if raw = 3 then some .middle
  else if raw = 4 then some .back
  else if raw = 5 then some .forward
  else none

def Modifiers.all : UInt16 := 0x3F

structure Modifiers where
  bits : UInt16
  valid : bits &&& ~~~Modifiers.all = 0
  deriving DecidableEq

def Modifiers.fromBits (bits : UInt16) : Option Modifiers :=
  if h : bits &&& ~~~Modifiers.all = 0 then some ⟨bits, h⟩ else none

structure AxisValue120 where
  raw : Int32
  deriving DecidableEq

/-! ## Outputs -/

structure DisplayMode where
  widthPx : UInt32
  heightPx : UInt32
  strideBytes : UInt32
  format : PixelFormat
  scale : Scale120
  refreshMhz : UInt32
  deriving DecidableEq, Repr

structure OutputInfo where
  id : OutputId
  mode : DisplayMode
  logicalSize : Size
  deriving DecidableEq

/-! ## Versions -/

structure ProtocolVersion where
  major : UInt16
  minor : UInt16
  deriving DecidableEq, Repr

structure Features where
  bits : UInt64
  deriving DecidableEq, Repr

end CleanSlate.Graphics
