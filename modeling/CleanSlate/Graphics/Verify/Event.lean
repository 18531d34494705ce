import CleanSlate.Graphics.Event
import CleanSlate.Graphics.Verify.Request

/-!
# Events on the wire

As for requests: the layout of every event, what `encode` writes and what `decode` accepts. An event
has one form only, so that here the two are inverse to one another.
-/

namespace CleanSlate.Graphics

open Lib

variable {out bytes : List UInt8} {e : Event} {tag : UInt32}

namespace Event

/-! ## Layouts -/

/-- The object field of an event that has one. -/
def object : Event → Option UInt32
  | error object .. => some object
  | bufferRegistered buffer | bufferReleased buffer | bufferUnregistered buffer =>
    some buffer.object.raw
  | surfaceCreated surface | frameDone surface .. | pointerEnter _ surface .. |
    pointerLeave _ surface => some surface.object.raw
  | windowCreated window | configure window .. | closeRequested window => some window.object.raw
  | keyboardFocus surface => some (rawOf (surface.map SurfaceId.object))
  | welcome .. | key .. | modifiersChanged .. | pointerMotion .. | pointerButton ..
  | pointerAxis .. | inputReset => none

/-- The body of an event. -/
def body : Event → List Wire.Part
  | welcome version features output =>
    [.of 12 version.major, .of 14 version.minor, .of 16 features.bits, .of 24 output.id.raw,
      .of 28 output.mode.widthPx, .of 32 output.mode.heightPx, .of 36 output.mode.strideBytes,
      .of 40 output.mode.format.toU8, .gap 41 1, .of 42 output.mode.scale.raw,
      .of 44 output.mode.refreshMhz, .of 48 output.logicalSize.width,
      .of 52 output.logicalSize.height, .gap 56 8]
  | error _ requestOpcode code => [.of 12 code.code, .of 14 requestOpcode, .gap 16 48]
  | frameDone _ presentedNs outputSeq => [.of 12 presentedNs, .of 20 outputSeq, .gap 28 36]
  | configure _ serial size scale decoration states bounds =>
    [.of 12 serial.raw, .of 16 size.width, .of 20 size.height, .of 24 scale.raw,
      .of 26 decoration.asU8, .gap 27 1, .of 28 states.bits, .of 32 bounds.width,
      .of 36 bounds.height, .gap 40 24]
  | key serial timeNs usage state modifiers =>
    [.of 12 serial.raw, .of 16 timeNs, .of 24 usage.raw, .of 26 state.asU8, .gap 27 1,
      .of 28 modifiers.bits, .gap 30 34]
  | modifiersChanged modifiers => [.of 12 modifiers.bits, .gap 14 50]
  | pointerEnter serial _ x y => [.of 12 serial.raw, .of 16 x.raw, .of 20 y.raw, .gap 24 40]
  | pointerLeave serial _ => [.of 12 serial.raw, .gap 16 48]
  | pointerMotion timeNs x y => [.of 12 timeNs, .of 20 x.raw, .of 24 y.raw, .gap 28 36]
  | pointerButton serial timeNs button state =>
    [.of 12 serial.raw, .of 16 timeNs, .of 24 button.asU16, .of 26 state.asU8, .gap 27 37]
  | pointerAxis timeNs vertical horizontal =>
    [.of 12 timeNs, .of 20 vertical.raw, .of 24 horizontal.raw, .gap 28 36]
  | bufferRegistered _ | bufferReleased _ | bufferUnregistered _ | surfaceCreated _
  | windowCreated _ | closeRequested _ | keyboardFocus _ | inputReset => [.gap 12 52]

theorem tiles_body (e : Event) : Wire.Tiles frameBytes headerBytes e.body := by
  cases e with
  | welcome => exact ⟨rfl, rfl, rfl, rfl, rfl, rfl, rfl, rfl, rfl, rfl, rfl, rfl, rfl, rfl, rfl⟩
  | configure => exact ⟨rfl, rfl, rfl, rfl, rfl, rfl, rfl, rfl, rfl, rfl, rfl⟩
  | key => exact ⟨rfl, rfl, rfl, rfl, rfl, rfl, rfl, rfl⟩
  | pointerButton => exact ⟨rfl, rfl, rfl, rfl, rfl, rfl⟩
  | pointerEnter | pointerMotion | pointerAxis => exact ⟨rfl, rfl, rfl, rfl, rfl⟩
  | error | frameDone => exact ⟨rfl, rfl, rfl, rfl⟩
  | modifiersChanged | pointerLeave => exact ⟨rfl, rfl, rfl⟩
  | bufferRegistered | bufferReleased | bufferUnregistered | surfaceCreated | windowCreated
  | closeRequested | keyboardFocus | inputReset => exact ⟨rfl, rfl⟩

/-! ## Encoding -/

/-- What an encoder checks that the types do not say already. -/
def Valid : Event → Prop
  | welcome _ _ output => output.mode.scale.raw ≠ 0
  | configure _ serial size scale _ _ bounds =>
    serial.raw ≠ 0 ∧ ¬size.tooLarge ∧ ¬bounds.tooLarge ∧ scale.raw ≠ 0
  | key serial _ usage _ _ => serial.raw ≠ 0 ∧ usage.isValid
  | pointerEnter serial _ _ _ | pointerLeave serial _ | pointerButton serial _ _ _ =>
    serial.raw ≠ 0
  | _ => True

theorem exists_serial {serial : Serial} :
    (∃ serial', serialRequiredEvent serial.raw = .ok serial') ↔ serial.raw ≠ 0 := by
  simp only [serialRequiredEvent_ok]
  constructor
  · rintro ⟨serial', hsr, hraw⟩
    rwa [hraw]
  · intro hsr
    exact ⟨serial, hsr, rfl⟩

/-- The check that the encoder of `keyboardFocus` makes on the identity always passes. -/
theorem encodeFocus_ok {id : Option ObjectId} :
    (if rawOf id ≠ 0 then decodeObjectRequired (rawOf id) >>= fun _ => pure out else .ok out) =
      (.ok out : Except ProtocolError (List UInt8)) := by
  cases id with
  | none => rfl
  | some id =>
    have hdc : decodeObjectRequired (rawOf (some id)) = .ok id := decodeObjectRequired_ok.2 rfl
    rw [hdc]
    split <;> rfl

/-- `encode` accepts the valid events, and writes their frame. -/
theorem encode_ok :
    e.encode tag = .ok out ↔ e.Valid ∧ messageFrame e.opcode tag e.object e.body = out := by
  have hfr : messageFrame e.opcode tag e.object e.body = spliceAll (List.replicate frameBytes 0)
        (Wire.fields (header e.opcode tag e.object ++ e.body)) :=
    (Wire.spliceAll_fields ((tiles_header e.opcode tag e.object).append e.tiles_body)).symm
  rw [hfr]
  cases e with
  | welcome version features output =>
    simp only [encode, encodeWelcomeBody, ite_error_eq_ok, Except.ok.injEq, Valid]
    rfl
  | configure window serial size scale decoration states bounds =>
    have hst : WindowStates.fromBits states.bits = some states := WindowStates.fromBits_some.2 rfl
    simp only [encode, encodeConfigureBody, bind_eq_ok, ite_error_eq_ok, hst, okOr_eq_ok,
      Option.some.injEq, exists_eq_left', exists_and_right, exists_serial, pure_eq_ok, Valid, and_assoc]
    rfl
  | keyboardFocus surface =>
    have hraw : (surface.map fun s => s.object.encode).getD 0 =
        rawOf (surface.map SurfaceId.object) := by
      cases surface <;> rfl
    simp only [encode, encodeFocus_ok, hraw, Except.ok.injEq, Valid, true_and]
    rfl
  | key serial timeNs usage state modifiers =>
    have hmd : Modifiers.fromBits modifiers.bits = some modifiers := Modifiers.fromBits_some.2 rfl
    simp only [encode, encodeKeyBody, bind_eq_ok, ite_error_eq_ok, hmd, okOr_eq_ok,
      Option.some.injEq, exists_eq_left', exists_and_right, exists_serial, pure_eq_ok, Valid, and_assoc,
      Bool.not_eq_true', Bool.not_eq_false]
    rfl
  | modifiersChanged modifiers =>
    have hmd : Modifiers.fromBits modifiers.bits = some modifiers := Modifiers.fromBits_some.2 rfl
    simp only [encode, encodeModifiersBody, hmd, bind_eq_ok,
      okOr_eq_ok, Option.some.injEq, exists_eq_left', pure_eq_ok, Valid, true_and]
    rfl
  | pointerEnter | pointerLeave | pointerButton =>
    simp only [encode, bind_eq_ok, exists_and_right, exists_serial, pure_eq_ok, Valid]
    rfl
  | error | bufferRegistered | bufferReleased | bufferUnregistered | surfaceCreated | frameDone
  | windowCreated | closeRequested | pointerMotion | pointerAxis | inputReset =>
    simp only [encode, Except.ok.injEq, Valid, true_and]
    rfl

/-! ## Decoding -/

variable {raw : UInt32}

section
variable (hlen : bytes.length = frameBytes)

include hlen in
attribute [local simp] bind_eq_ok okOr_eq_ok pure_eq_ok ite_error_eq_ok Valid object body
  requiredBuffer_ok requiredSurface_ok requiredWindow_ok serialRequiredEvent_ok
  decodeObjectOptional_ok OutputId.decode_ok PixelFormat.fromU8_some ProtocolError.fromU16_some
  DecorationMode.fromU8_some WindowStates.fromBits_some KeyState.fromU8_some Modifiers.fromBits_some
  PointerButton.fromU16_some decodeWelcomeBody decodeConfigureBody decodeKeyBody
  decodeModifiersBody in
theorem accepts_iff (e : Event) : (runDecodePrelude bytes eventSpecs e.opcode raw = .ok () ∧
        decodeMessage bytes e.opcode raw = .ok e) ↔
      e.Valid ∧ raw = e.object.getD 0 ∧ ∀ p ∈ e.body, p.Holds bytes := by
  cases e
  case' welcome version features output =>
    obtain ⟨major, minor⟩ := version
    obtain ⟨bits⟩ := features
    obtain ⟨id, ⟨width, height, stride, format, ⟨scale⟩, refresh⟩, ⟨logicalWidth, logicalHeight⟩⟩ :=
      output
  case' configure window serial size scale decoration states bounds =>
    obtain ⟨width, height⟩ := size
    obtain ⟨scale⟩ := scale
    obtain ⟨boundsWidth, boundsHeight⟩ := bounds
  case' key serial timeNs usage state modifiers => obtain ⟨usage⟩ := usage
  case' pointerEnter serial surface x y | pointerMotion timeNs x y | pointerAxis timeNs x y =>
    obtain ⟨x⟩ := x
    obtain ⟨y⟩ := y
  all_goals
    rw [runDecodePrelude_ok (by exact rfl)]
    simp +decide only [decodeMessage, opcode, ↓reduceIte]
    simp (disch := decide) [-bind_pure_comp, checkRangeZero_ok hlen, holds_u8 hlen, holds_u16 hlen,
      holds_u32 hlen, holds_u64 hlen, holds_i32 hlen]
  case keyboardFocus surface =>
    constructor
    · rintro ⟨⟨-, hpad⟩, id, hobject, rfl⟩
      exact ⟨by simpa [Function.comp_def] using hobject, hpad⟩
    · rintro ⟨hobject, hpad⟩
      exact ⟨⟨⟨_, hobject⟩, hpad⟩, _, hobject, by simp [Function.comp_def]⟩
  all_goals grind

end

/-- `decode` goes by the opcode of the frame. -/
theorem decodeMessage_yields (bytes : List UInt8) (op : UInt16) (raw : UInt32) :
    Yields (decodeMessage bytes op raw) fun e => e.opcode = op := by
  -- one goal for each opcode; what its decoder returns is built with that opcode
  repeat' refine yields_ite (fun h => h ▸ ?_) fun _ => ?_
  all_goals repeat' first
    | exact yields_error
    | exact yields_ok rfl
    | exact yields_map fun _ => rfl
    | refine yields_bind fun _ => ?_
    | refine yields_ite (fun _ => ?_) fun _ => ?_

theorem decode_ok : decode bytes = .ok ⟨tag, e⟩ ↔
      e.Valid ∧ bytes = messageFrame e.opcode tag e.object e.body :=
  decodeWith_ok_iff tiles_body (decodeMessage_yields bytes) fun hlen e _ => accepts_iff hlen e

theorem decode_iff_encode : decode bytes = .ok ⟨tag, e⟩ ↔ e.encode tag = .ok bytes := by
  rw [decode_ok, encode_ok, eq_comm]

end Event

/-! ## The codec -/

/-- Both codecs are canonical: a frame is the encoding of what it decodes to, and an encoding decodes
to the message it was made from, up to the rectangles behind a count and an acknowledgement of serial
zero. -/
theorem codec_canonical :
    (∀ bytes tag (m : Request), Request.decode bytes = .ok ⟨tag, m⟩ → m.encode tag = .ok bytes) ∧
    (∀ bytes tag (e : Event), Event.decode bytes = .ok ⟨tag, e⟩ → e.encode tag = .ok bytes) ∧
    (∀ bytes tag (m : Request),
      m.encode tag = .ok bytes → Request.decode bytes = .ok ⟨tag, m.canonical⟩) ∧
    ∀ bytes tag (e : Event), e.encode tag = .ok bytes → Event.decode bytes = .ok ⟨tag, e⟩ :=
  ⟨fun _ _ _ => Request.encode_of_decode, fun _ _ _ => Event.decode_iff_encode.1,
    fun _ _ _ => Request.decode_of_encode, fun _ _ _ => Event.decode_iff_encode.2⟩

/-- A commit that acknowledges serial zero, and a surface that is created. -/
theorem codec_canonical_commit :
    let surface : SurfaceId := ⟨⟨0x10001, _, rfl⟩⟩
    let bytes : List UInt8 := [0x27, 0, 0, 0, 7, 0, 0, 0, 1, 0, 1, 0, 1] ++ List.replicate 51 0
    let bytes' : List UInt8 := [0x20, 0x80, 0, 0, 7, 0, 0, 0, 1, 0, 1, 0] ++ List.replicate 52 0
    Request.decode bytes = .ok ⟨7, .commit surface true .srgb none⟩ ∧
      (Request.commit surface true .srgb none).encode 7 = .ok bytes ∧
      Event.decode bytes' = .ok ⟨7, .surfaceCreated surface⟩ ∧
      (Event.surfaceCreated surface).encode 7 = .ok bytes' :=
  have h := codec_canonical
  ⟨h.2.2.1 _ 7 (.commit _ true .srgb (some ⟨0⟩)) rfl, h.1 _ _ _ rfl, h.2.2.2 _ _ _ rfl,
    h.2.1 _ _ _ rfl⟩

end CleanSlate.Graphics
