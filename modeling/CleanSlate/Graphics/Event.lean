import CleanSlate.Graphics.Protocol

/-!
# Compositor events

`graphics/src/protocol/event.rs`: the events, and how they are written to and read from a frame.
-/

namespace CleanSlate.Graphics

open Lib

inductive Event where
  | welcome (version : ProtocolVersion) (features : Features) (output : OutputInfo)
  | error (object : UInt32) (requestOpcode : UInt16) (code : ProtocolError)
  | bufferRegistered (buffer : ClientBufferId)
  | bufferReleased (buffer : ClientBufferId)
  | bufferUnregistered (buffer : ClientBufferId)
  | surfaceCreated (surface : SurfaceId)
  | frameDone (surface : SurfaceId) (presentedNs outputSeq : UInt64)
  | windowCreated (window : WindowId)
  | configure (window : WindowId) (serial : Serial) (size : Size) (scale : Scale120)
      (decoration : DecorationMode) (states : WindowStates) (bounds : Size)
  | closeRequested (window : WindowId)
  | keyboardFocus (surface : Option SurfaceId)
  | key (serial : Serial) (timeNs : UInt64) (usage : KeyUsage) (state : KeyState)
      (modifiers : Modifiers)
  | modifiersChanged (modifiers : Modifiers)
  | pointerEnter (serial : Serial) (surface : SurfaceId) (x y : Fixed24_8)
  | pointerLeave (serial : Serial) (surface : SurfaceId)
  | pointerMotion (timeNs : UInt64) (x y : Fixed24_8)
  | pointerButton (serial : Serial) (timeNs : UInt64) (button : PointerButton) (state : KeyState)
  | pointerAxis (timeNs : UInt64) (vertical horizontal : AxisValue120)
  | inputReset

/-- The extents a `Configure` may carry. -/
def Size.tooLarge (size : Size) : Prop :=
  size.width.toNat > maxSurfaceExtent ∨ size.height.toNat > maxSurfaceExtent
deriving Decidable

namespace Event

def opcode : Event → UInt16
  | welcome .. => opWelcome
  | error .. => opError
  | bufferRegistered .. => opBufferRegistered
  | bufferReleased .. => opBufferReleased
  | bufferUnregistered .. => opBufferUnregistered
  | surfaceCreated .. => opSurfaceCreated
  | frameDone .. => opFrameDone
  | windowCreated .. => opWindowCreated
  | configure .. => opConfigure
  | closeRequested .. => opCloseRequested
  | keyboardFocus .. => opKeyboardFocus
  | key .. => opKey
  | modifiersChanged .. => opModifiersChanged
  | pointerEnter .. => opPointerEnter
  | pointerLeave .. => opPointerLeave
  | pointerMotion .. => opPointerMotion
  | pointerButton .. => opPointerButton
  | pointerAxis .. => opPointerAxis
  | inputReset => opInputReset

/-! ## Bodies -/

variable (out : List UInt8) (bytes : List UInt8)

def encodeWelcomeBody (version : ProtocolVersion) (features : Features)
    (output : OutputInfo) : Except ProtocolError (List UInt8) :=
  let out := writeU16Le out 12 version.major
  let out := writeU16Le out 14 version.minor
  let out := writeU64Le out 16 features.bits
  let out := writeU32Le out 24 output.id.encode
  let out := writeU32Le out 28 output.mode.widthPx
  let out := writeU32Le out 32 output.mode.heightPx
  let out := writeU32Le out 36 output.mode.strideBytes
  let out := writeU8 out 40 output.mode.format.toU8
  let out := writeU16Le out 42 output.mode.scale.raw
  if output.mode.scale.raw = 0 then .error .invalidScale
  else
    let out := writeU32Le out 44 output.mode.refreshMhz
    let out := writeU32Le out 48 output.logicalSize.width
    .ok (writeU32Le out 52 output.logicalSize.height)

def decodeWelcomeBody : Except ProtocolError Event := do
  let outputId ← (OutputId.decode (readU32Le bytes 24)).mapError fun _ => .malformedFrame
  let format ← okOr (PixelFormat.fromU8 (readU8 bytes 40)) .invalidFormat
  let scaleRaw := readU16Le bytes 42
  if scaleRaw = 0 then .error .invalidScale
  else
    let mode : DisplayMode :=
      { widthPx := readU32Le bytes 28
        heightPx := readU32Le bytes 32
        strideBytes := readU32Le bytes 36
        format
        scale := ⟨scaleRaw⟩
        refreshMhz := readU32Le bytes 44 }
    .ok (.welcome ⟨readU16Le bytes 12, readU16Le bytes 14⟩ ⟨readU64Le bytes 16⟩
      { id := outputId, mode, logicalSize := ⟨readU32Le bytes 48, readU32Le bytes 52⟩ })

def encodeConfigureBody (serial : Serial) (size : Size) (scale : Scale120)
    (decoration : DecorationMode) (states : WindowStates) (bounds : Size) :
    Except ProtocolError (List UInt8) := do
  let _ ← serialRequiredEvent serial.raw
  if size.tooLarge then .error .malformedFrame
  else if bounds.tooLarge then .error .malformedFrame
  else if scale.raw = 0 then .error .invalidScale
  else do
    let _ ← okOr (WindowStates.fromBits states.bits) .reservedBitsSet
    let out := writeU32Le out 12 serial.raw
    let out := writeU32Le out 16 size.width
    let out := writeU32Le out 20 size.height
    let out := writeU16Le out 24 scale.raw
    let out := writeU8 out 26 decoration.asU8
    let out := writeU32Le out 28 states.bits
    let out := writeU32Le out 32 bounds.width
    return writeU32Le out 36 bounds.height

def decodeConfigureBody (window : WindowId) : Except ProtocolError Event := do
  let serial ← serialRequiredEvent (readU32Le bytes 12)
  let size : Size := ⟨readU32Le bytes 16, readU32Le bytes 20⟩
  if size.tooLarge then .error .malformedFrame
  else
    let scaleRaw := readU16Le bytes 24
    if scaleRaw = 0 then .error .invalidScale
    else do
      let decoration ← okOr (DecorationMode.fromU8 (readU8 bytes 26)) .malformedFrame
      let states ← okOr (WindowStates.fromBits (readU32Le bytes 28)) .reservedBitsSet
      let bounds : Size := ⟨readU32Le bytes 32, readU32Le bytes 36⟩
      if bounds.tooLarge then .error .malformedFrame
      else .ok (.configure window serial size ⟨scaleRaw⟩ decoration states bounds)

def encodeKeyBody (serial : Serial) (timeNs : UInt64) (usage : KeyUsage)
    (state : KeyState) (modifiers : Modifiers) : Except ProtocolError (List UInt8) := do
  let _ ← serialRequiredEvent serial.raw
  if !usage.isValid then .error .malformedFrame
  else do
    let _ ← okOr (Modifiers.fromBits modifiers.bits) .reservedBitsSet
    let out := writeU32Le out 12 serial.raw
    let out := writeU64Le out 16 timeNs
    let out := writeU16Le out 24 usage.raw
    let out := writeU8 out 26 state.asU8
    return writeU16Le out 28 modifiers.bits

def decodeKeyBody : Except ProtocolError Event := do
  let serial ← serialRequiredEvent (readU32Le bytes 12)
  let usage : KeyUsage := ⟨readU16Le bytes 24⟩
  if !usage.isValid then .error .malformedFrame
  else do
    let state ← okOr (KeyState.fromU8 (readU8 bytes 26)) .malformedFrame
    let modifiers ← okOr (Modifiers.fromBits (readU16Le bytes 28)) .reservedBitsSet
    return .key serial (readU64Le bytes 16) usage state modifiers

def encodeModifiersBody (modifiers : Modifiers) : Except ProtocolError (List UInt8) := do
  let _ ← okOr (Modifiers.fromBits modifiers.bits) .reservedBitsSet
  return writeU16Le out 12 modifiers.bits

def decodeModifiersBody : Except ProtocolError Event := do
  let modifiers ← okOr (Modifiers.fromBits (readU16Le bytes 12)) .reservedBitsSet
  return .modifiersChanged modifiers

/-! ## Frames -/

def encode (self : Event) (tag : UInt32) : Except ProtocolError (List UInt8) :=
  let out := List.replicate frameBytes 0
  let out := writeU16Le out 0 self.opcode
  let out := writeU32Le out 4 tag
  match self with
  | welcome version features output => encodeWelcomeBody out version features output
  | error object requestOpcode code =>
    let out := writeU32Le out 8 object
    let out := writeU16Le out 12 code.code
    .ok (writeU16Le out 14 requestOpcode)
  | bufferRegistered buffer => .ok (writeU32Le out 8 buffer.object.encode)
  | bufferReleased buffer => .ok (writeU32Le out 8 buffer.object.encode)
  | bufferUnregistered buffer => .ok (writeU32Le out 8 buffer.object.encode)
  | surfaceCreated surface => .ok (writeU32Le out 8 surface.object.encode)
  | frameDone surface presentedNs outputSeq =>
    let out := writeU32Le out 8 surface.object.encode
    let out := writeU64Le out 12 presentedNs
    .ok (writeU64Le out 20 outputSeq)
  | windowCreated window => .ok (writeU32Le out 8 window.object.encode)
  | configure window serial size scale decoration states bounds =>
    encodeConfigureBody (writeU32Le out 8 window.object.encode) serial size scale decoration
      states bounds
  | closeRequested window => .ok (writeU32Le out 8 window.object.encode)
  | keyboardFocus surface =>
    let raw := (surface.map fun s => s.object.encode).getD 0
    if raw ≠ 0 then do
      let _ ← decodeObjectRequired raw
      return writeU32Le out 8 raw
    else .ok (writeU32Le out 8 raw)
  | key serial timeNs usage state modifiers => encodeKeyBody out serial timeNs usage state modifiers
  | modifiersChanged modifiers => encodeModifiersBody out modifiers
  | pointerEnter serial surface x y => do
    let out := writeU32Le out 8 surface.object.encode
    let _ ← serialRequiredEvent serial.raw
    let out := writeU32Le out 12 serial.raw
    let out := writeI32Le out 16 x.raw
    return writeI32Le out 20 y.raw
  | pointerLeave serial surface => do
    let out := writeU32Le out 8 surface.object.encode
    let _ ← serialRequiredEvent serial.raw
    return writeU32Le out 12 serial.raw
  | pointerMotion timeNs x y =>
    let out := writeU64Le out 12 timeNs
    let out := writeI32Le out 20 x.raw
    .ok (writeI32Le out 24 y.raw)
  | pointerButton serial timeNs button state => do
    let _ ← serialRequiredEvent serial.raw
    let out := writeU32Le out 12 serial.raw
    let out := writeU64Le out 16 timeNs
    let out := writeU16Le out 24 button.asU16
    return writeU8 out 26 state.asU8
  | pointerAxis timeNs vertical horizontal =>
    let out := writeU64Le out 12 timeNs
    let out := writeI32Le out 20 vertical.raw
    .ok (writeI32Le out 24 horizontal.raw)
  | inputReset => .ok out

/-- The `match opcode` of `decode`. -/
def decodeMessage (opcode : UInt16) (object : UInt32) : Except ProtocolError Event :=
  if opcode = opWelcome then decodeWelcomeBody bytes
  else if opcode = opError then do
    let code ← okOr (ProtocolError.fromU16 (readU16Le bytes 12)) .malformedFrame
    return error object (readU16Le bytes 14) code
  else if opcode = opBufferRegistered then (requiredBuffer object).map bufferRegistered
  else if opcode = opBufferReleased then (requiredBuffer object).map bufferReleased
  else if opcode = opBufferUnregistered then (requiredBuffer object).map bufferUnregistered
  else if opcode = opSurfaceCreated then (requiredSurface object).map surfaceCreated
  else if opcode = opFrameDone then do
    let surface ← requiredSurface object
    return frameDone surface (readU64Le bytes 12) (readU64Le bytes 20)
  else if opcode = opWindowCreated then (requiredWindow object).map windowCreated
  else if opcode = opConfigure then requiredWindow object >>= decodeConfigureBody bytes
  else if opcode = opCloseRequested then (requiredWindow object).map closeRequested
  else if opcode = opKeyboardFocus then do
    let surface ← decodeObjectOptional object
    return keyboardFocus (surface.map SurfaceId.mk)
  else if opcode = opKey then decodeKeyBody bytes
  else if opcode = opModifiersChanged then decodeModifiersBody bytes
  else if opcode = opPointerEnter then do
    let serial ← serialRequiredEvent (readU32Le bytes 12)
    let surface ← requiredSurface object
    return pointerEnter serial surface ⟨readI32Le bytes 16⟩ ⟨readI32Le bytes 20⟩
  else if opcode = opPointerLeave then do
    let serial ← serialRequiredEvent (readU32Le bytes 12)
    let surface ← requiredSurface object
    return pointerLeave serial surface
  else if opcode = opPointerMotion then
    .ok (pointerMotion (readU64Le bytes 12) ⟨readI32Le bytes 20⟩ ⟨readI32Le bytes 24⟩)
  else if opcode = opPointerButton then do
    let serial ← serialRequiredEvent (readU32Le bytes 12)
    let button ← okOr (PointerButton.fromU16 (readU16Le bytes 24)) .malformedFrame
    let state ← okOr (KeyState.fromU8 (readU8 bytes 26)) .malformedFrame
    return pointerButton serial (readU64Le bytes 16) button state
  else if opcode = opPointerAxis then
    .ok (pointerAxis (readU64Le bytes 12) ⟨readI32Le bytes 20⟩ ⟨readI32Le bytes 24⟩)
  else if opcode = opInputReset then .ok inputReset
  else .error .unknownOpcode

def decode : Except DecodeError (Tagged Event) := do
  checkFrameLen bytes
  checkHeaderReserved bytes
  let opcode := readU16Le bytes 0
  let tag := readU32Le bytes 4
  let object := readU32Le bytes 8
  (runDecodePrelude bytes eventSpecs opcode object).mapError (decodeError bytes)
  let message ← (decodeMessage bytes opcode object).mapError (decodeError bytes)
  return ⟨tag, message⟩

end Event

end CleanSlate.Graphics
