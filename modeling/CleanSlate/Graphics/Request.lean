import CleanSlate.Graphics.Protocol

/-!
# Client requests

`graphics/src/protocol/request.rs`: the requests, and how they are written to and read from a frame.
-/

namespace CleanSlate.Graphics

open Lib

def damageRectsPerFrame : Nat := 5
def regionRectsPerFrame : Nat := 3

inductive Request where
  | hello (version : ProtocolVersion) (features : Features)
  | registerBuffer (layout : BufferLayout)
  | unregisterBuffer (buffer : ClientBufferId)
  | createSurface
  | destroySurface (surface : SurfaceId)
  | assignRole (surface : SurfaceId) (role : SurfaceRole) (parent : Option SurfaceId)
  | attach (surface : SurfaceId) (buffer : Option ClientBufferId) (bufferScale : Scale120)
  | damage (surface : SurfaceId) (rects : Fin damageRectsPerFrame → BufferRect) (count : UInt8)
  | setOpaqueRegion (surface : SurfaceId) (rects : Fin regionRectsPerFrame → Rect) (count : UInt8)
      (replace : Bool)
  | setInputRegion (surface : SurfaceId) (rects : Fin regionRectsPerFrame → Rect) (count : UInt8)
      (replace : Bool)
  | commit (surface : SurfaceId) (requestFrame : Bool) (colorSpace : ColorSpace)
      (ack : Option Serial)
  | createWindow (surface : SurfaceId)
  | destroyWindow (window : WindowId)
  | setTitle (window : WindowId) (title : WindowTitle)
  | setSizeLimits (window : WindowId) (min max : Size)
  | showWindow (window : WindowId)
  | hideWindow (window : WindowId)
  | beginMove (window : WindowId) (serial : Serial)
  | beginResize (window : WindowId) (serial : Serial) (edges : ResizeEdges)
  | ackConfigure (window : WindowId) (serial : Serial)

/-! ## Rectangles -/

def writeBufferRect (out : List UInt8) (base : Nat) (r : BufferRect) : List UInt8 :=
  let out := writeU16Le out base r.x
  let out := writeU16Le out (base + 2) r.y
  let out := writeU16Le out (base + 4) r.width
  writeU16Le out (base + 6) r.height

def readBufferRect (bytes : List UInt8) (base : Nat) : BufferRect where
  x := readU16Le bytes base
  y := readU16Le bytes (base + 2)
  width := readU16Le bytes (base + 4)
  height := readU16Le bytes (base + 6)

def writeRect (out : List UInt8) (base : Nat) (r : Rect) : List UInt8 :=
  let out := writeI32Le out base r.x
  let out := writeI32Le out (base + 4) r.y
  let out := writeU32Le out (base + 8) r.width
  writeU32Le out (base + 12) r.height

def readRect (bytes : List UInt8) (base : Nat) : Rect where
  x := readI32Le bytes base
  y := readI32Le bytes (base + 4)
  width := readU32Le bytes (base + 8)
  height := readU32Le bytes (base + 12)

def validateSizeLimits (min max : Size) : Except ProtocolError Unit :=
  if min.width.toNat > maxSurfaceExtent ∨ min.height.toNat > maxSurfaceExtent then
    .error .invalidLayout
  else if max.width.toNat > maxSurfaceExtent ∨ max.height.toNat > maxSurfaceExtent then
    .error .invalidLayout
  else if max.width ≠ 0 ∧ min.width > max.width then .error .invalidLayout
  else if max.height ≠ 0 ∧ min.height > max.height then .error .invalidLayout
  else .ok ()

namespace Request

def opcode : Request → UInt16
  | hello .. => opHello
  | registerBuffer .. => opRegisterBuffer
  | unregisterBuffer .. => opUnregisterBuffer
  | createSurface => opCreateSurface
  | destroySurface .. => opDestroySurface
  | assignRole .. => opAssignRole
  | attach .. => opAttach
  | damage .. => opDamage
  | setOpaqueRegion .. => opSetOpaqueRegion
  | setInputRegion .. => opSetInputRegion
  | commit .. => opCommit
  | createWindow .. => opCreateWindow
  | destroyWindow .. => opDestroyWindow
  | setTitle .. => opSetTitle
  | setSizeLimits .. => opSetSizeLimits
  | showWindow .. => opShow
  | hideWindow .. => opHide
  | beginMove .. => opBeginMove
  | beginResize .. => opBeginResize
  | ackConfigure .. => opAckConfigure

/-! ## Bodies -/

variable (out : List UInt8) (bytes : List UInt8)

def encodeHelloBody (version : ProtocolVersion) (features : Features) :
    Except ProtocolError (List UInt8) :=
  let out := writeU16Le out 12 version.major
  let out := writeU16Le out 14 version.minor
  .ok (writeU64Le out 16 features.bits)

def decodeHelloBody : Except ProtocolError Request :=
  .ok (.hello ⟨readU16Le bytes 12, readU16Le bytes 14⟩ ⟨readU64Le bytes 16⟩)

def encodeRegisterBufferBody (layout : BufferLayout) : Except ProtocolError (List UInt8) := do
  let _ ← okOr (PixelFormat.fromU8 layout.format.toU8) .invalidFormat
  let _ ← (BufferLayout.new layout.width layout.height layout.strideBytes layout.format).mapError
    fun _ => .invalidLayout
  let out := writeU32Le out 12 layout.width
  let out := writeU32Le out 16 layout.height
  let out := writeU32Le out 20 layout.strideBytes
  return writeU8 out 24 layout.format.toU8

def decodeRegisterBufferBody : Except ProtocolError Request := do
  let width := readU32Le bytes 12
  let height := readU32Le bytes 16
  let stride := readU32Le bytes 20
  let format ← okOr (PixelFormat.fromU8 (readU8 bytes 24)) .invalidFormat
  let layout ← (BufferLayout.new width height stride format).mapError fun _ => .invalidLayout
  return .registerBuffer layout

/-- The raw value of an optional identity, and the check the encoders make on it. -/
def encodeOptionalId (id : Option ObjectId) : Except ProtocolError UInt32 :=
  let raw := (id.map ObjectId.encode).getD 0
  if raw ≠ 0 then do
    let _ ← decodeObjectRequired raw
    return raw
  else .ok raw

def encodeAssignRoleBody (role : SurfaceRole) (parent : Option SurfaceId) :
    Except ProtocolError (List UInt8) :=
  if (SurfaceRole.fromU8 role.asU8).isNone then .error .malformedFrame
  else do
    let out := writeU8 out 12 role.asU8
    let parentRaw ← encodeOptionalId (parent.map SurfaceId.object)
    return writeU32Le out 16 parentRaw

def decodeAssignRoleBody (surface : SurfaceId) : Except ProtocolError Request := do
  let role ← okOr (SurfaceRole.fromU8 (readU8 bytes 12)) .malformedFrame
  let parent ← decodeObjectOptional (readU32Le bytes 16)
  return .assignRole surface role (parent.map SurfaceId.mk)

def encodeAttachBody (buffer : Option ClientBufferId) (bufferScale : Scale120) :
    Except ProtocolError (List UInt8) := do
  let raw ← encodeOptionalId (buffer.map ClientBufferId.object)
  if bufferScale.raw = 0 then .error .invalidScale
  else
    let out := writeU32Le out 12 raw
    .ok (writeU16Le out 16 bufferScale.raw)

def decodeAttachBody (surface : SurfaceId) : Except ProtocolError Request := do
  let buffer ← decodeObjectOptional (readU32Le bytes 12)
  let scaleRaw := readU16Le bytes 16
  if scaleRaw = 0 then .error .invalidScale
  else .ok (.attach surface (buffer.map ClientBufferId.mk) ⟨scaleRaw⟩)

def encodeDamageBody (rects : Fin damageRectsPerFrame → BufferRect)
    (count : UInt8) : Except ProtocolError (List UInt8) :=
  if count.toNat > damageRectsPerFrame then .error .invalidDamage
  else
    let out := writeU8 out 12 count
    .ok ((List.finRange damageRectsPerFrame).foldl
      (fun out i => if i.val < count.toNat then writeBufferRect out (16 + 8 * i.val) (rects i)
        else out) out)

def decodeDamageBody (surface : SurfaceId) : Except ProtocolError Request :=
  let count := readU8 bytes 12
  if count.toNat > damageRectsPerFrame then .error .invalidDamage
  else do
    (List.finRange damageRectsPerFrame).forM fun i =>
      if i.val < count.toNat then .ok ()
      else checkRangeZero bytes (16 + 8 * i.val) (16 + 8 * i.val + 8)
    let rects : Fin damageRectsPerFrame → BufferRect := fun i =>
      if i.val < count.toNat then readBufferRect bytes (16 + 8 * i.val) else ⟨0, 0, 0, 0⟩
    return .damage surface rects count

def encodeRegionBody (rects : Fin regionRectsPerFrame → Rect) (count : UInt8)
    (replace : Bool) : Except ProtocolError (List UInt8) :=
  if count.toNat > regionRectsPerFrame then .error .invalidRegion
  else
    let out := writeU8 out 12 count
    let out := writeU8 out 13 (boolByte replace)
    (List.finRange regionRectsPerFrame).foldlM (fun out i =>
        if i.val < count.toNat then do
          let _ ← (rects i).validate.mapError fun _ => ProtocolError.invalidRegion
          return writeRect out (16 + 16 * i.val) (rects i)
        else .ok out) out

def decodeRegionBody (surface : SurfaceId) (opaqueRegion : Bool) : Except ProtocolError Request :=
  let count := readU8 bytes 12
  if count.toNat > regionRectsPerFrame then .error .invalidRegion
  else do
    let replace ← decodeBool (readU8 bytes 13)
    (List.finRange regionRectsPerFrame).forM fun i =>
      if i.val < count.toNat then do
        let _ ← (readRect bytes (16 + 16 * i.val)).validate.mapError
          fun _ => ProtocolError.invalidRegion
        return ()
      else checkRangeZero bytes (16 + 16 * i.val) (16 + 16 * i.val + 16)
    let rects : Fin regionRectsPerFrame → Rect := fun i =>
      if i.val < count.toNat then readRect bytes (16 + 16 * i.val) else ⟨0, 0, 0, 0⟩
    if opaqueRegion then return .setOpaqueRegion surface rects count replace
    else return .setInputRegion surface rects count replace

def encodeCommitBody (requestFrame : Bool) (colorSpace : ColorSpace)
    (ack : Option Serial) : Except ProtocolError (List UInt8) :=
  let out := writeU8 out 12 (boolByte requestFrame)
  let out := match colorSpace with
    | .srgb => writeU8 out 13 0
  .ok (writeU32Le out 16 ((ack.map Serial.raw).getD 0))

def decodeCommitBody (surface : SurfaceId) : Except ProtocolError Request := do
  let requestFrame ← decodeBool (readU8 bytes 12)
  if readU8 bytes 13 ≠ 0 then .error .invalidFormat
  else .ok (.commit surface requestFrame .srgb (serialOptional (readU32Le bytes 16)))

def encodeSetTitleBody (title : WindowTitle) : Except ProtocolError (List UInt8) :=
  let out := writeU8 out 12 title.len
  .ok (splice out 13 (List.ofFn title.bytes))

def decodeSetTitleBody (window : WindowId) : Except ProtocolError Request :=
  let len := readU8 bytes 12
  if len.toNat > maxTitleBytes then .error .malformedFrame
  else do
    let title ← WindowTitle.fromWire len fun i => readU8 bytes (13 + i.val)
    return .setTitle window title

def encodeSetSizeLimitsBody (min max : Size) : Except ProtocolError (List UInt8) := do
  validateSizeLimits min max
  let out := writeU32Le out 12 min.width
  let out := writeU32Le out 16 min.height
  let out := writeU32Le out 20 max.width
  return writeU32Le out 24 max.height

def decodeSetSizeLimitsBody (window : WindowId) : Except ProtocolError Request := do
  let min : Size := ⟨readU32Le bytes 12, readU32Le bytes 16⟩
  let max : Size := ⟨readU32Le bytes 20, readU32Le bytes 24⟩
  validateSizeLimits min max
  return .setSizeLimits window min max

/-- What `BeginMove`, `BeginResize` and `AckConfigure` write first. -/
def encodeSerial (serial : Serial) : Except ProtocolError (List UInt8) := do
  let _ ← serialRequiredRequest serial.raw
  return writeU32Le out 12 serial.raw

/-! ## Frames -/

def encode (self : Request) (tag : UInt32) : Except ProtocolError (List UInt8) :=
  let out := List.replicate frameBytes 0
  let out := writeU16Le out 0 self.opcode
  let out := writeU32Le out 4 tag
  match self with
  | hello version features => encodeHelloBody out version features
  | registerBuffer layout => encodeRegisterBufferBody out layout
  | unregisterBuffer buffer => .ok (writeU32Le out 8 buffer.object.encode)
  | createSurface => .ok out
  | destroySurface surface => .ok (writeU32Le out 8 surface.object.encode)
  | assignRole surface role parent =>
    encodeAssignRoleBody (writeU32Le out 8 surface.object.encode) role parent
  | attach surface buffer bufferScale =>
    encodeAttachBody (writeU32Le out 8 surface.object.encode) buffer bufferScale
  | damage surface rects count =>
    encodeDamageBody (writeU32Le out 8 surface.object.encode) rects count
  | setOpaqueRegion surface rects count replace =>
    encodeRegionBody (writeU32Le out 8 surface.object.encode) rects count replace
  | setInputRegion surface rects count replace =>
    encodeRegionBody (writeU32Le out 8 surface.object.encode) rects count replace
  | commit surface requestFrame colorSpace ack =>
    encodeCommitBody (writeU32Le out 8 surface.object.encode) requestFrame colorSpace ack
  | createWindow surface => .ok (writeU32Le out 8 surface.object.encode)
  | destroyWindow window => .ok (writeU32Le out 8 window.object.encode)
  | setTitle window title => encodeSetTitleBody (writeU32Le out 8 window.object.encode) title
  | setSizeLimits window min max =>
    encodeSetSizeLimitsBody (writeU32Le out 8 window.object.encode) min max
  | showWindow window => .ok (writeU32Le out 8 window.object.encode)
  | hideWindow window => .ok (writeU32Le out 8 window.object.encode)
  | beginMove window serial => encodeSerial (writeU32Le out 8 window.object.encode) serial
  | beginResize window serial edges => do
    let out ← encodeSerial (writeU32Le out 8 window.object.encode) serial
    if (ResizeEdges.fromU8 edges.bits).isNone then .error .malformedFrame
    else return writeU8 out 16 edges.bits
  | ackConfigure window serial => encodeSerial (writeU32Le out 8 window.object.encode) serial

/-- The `match opcode` of `decode`. -/
def decodeMessage (opcode : UInt16) (object : UInt32) : Except ProtocolError Request :=
  if opcode = opHello then decodeHelloBody bytes
  else if opcode = opRegisterBuffer then decodeRegisterBufferBody bytes
  else if opcode = opUnregisterBuffer then (requiredBuffer object).map unregisterBuffer
  else if opcode = opCreateSurface then .ok createSurface
  else if opcode = opDestroySurface then (requiredSurface object).map destroySurface
  else if opcode = opAssignRole then requiredSurface object >>= decodeAssignRoleBody bytes
  else if opcode = opAttach then requiredSurface object >>= decodeAttachBody bytes
  else if opcode = opDamage then requiredSurface object >>= decodeDamageBody bytes
  else if opcode = opSetOpaqueRegion then
    requiredSurface object >>= (decodeRegionBody bytes · true)
  else if opcode = opSetInputRegion then
    requiredSurface object >>= (decodeRegionBody bytes · false)
  else if opcode = opCommit then requiredSurface object >>= decodeCommitBody bytes
  else if opcode = opCreateWindow then (requiredSurface object).map createWindow
  else if opcode = opDestroyWindow then (requiredWindow object).map destroyWindow
  else if opcode = opSetTitle then requiredWindow object >>= decodeSetTitleBody bytes
  else if opcode = opSetSizeLimits then requiredWindow object >>= decodeSetSizeLimitsBody bytes
  else if opcode = opShow then (requiredWindow object).map showWindow
  else if opcode = opHide then (requiredWindow object).map hideWindow
  else if opcode = opBeginMove then do
    let window ← requiredWindow object
    let serial ← serialRequiredRequest (readU32Le bytes 12)
    return beginMove window serial
  else if opcode = opBeginResize then do
    let window ← requiredWindow object
    let serial ← serialRequiredRequest (readU32Le bytes 12)
    let edges ← okOr (ResizeEdges.fromU8 (readU8 bytes 16)) .malformedFrame
    return beginResize window serial edges
  else if opcode = opAckConfigure then do
    let window ← requiredWindow object
    let serial ← serialRequiredRequest (readU32Le bytes 12)
    return ackConfigure window serial
  else .error .unknownOpcode

def decode : Except DecodeError (Tagged Request) := do
  checkFrameLen bytes
  checkHeaderReserved bytes
  let opcode := readU16Le bytes 0
  let tag := readU32Le bytes 4
  let object := readU32Le bytes 8
  (runDecodePrelude bytes requestSpecs opcode object).mapError (decodeError bytes)
  let message ← (decodeMessage bytes opcode object).mapError (decodeError bytes)
  return ⟨tag, message⟩

end Request

end CleanSlate.Graphics
