import CleanSlate.Graphics.Protocol

/-!
# What the parts of a frame read as

Every value of the protocol is read back from exactly the raw value it is written as, and the
checks of the header and of the padding are those of the parts of a layout. Requests and events
then only differ in their layouts.
-/

namespace CleanSlate.Graphics

open Lib Wire

variable {raw tag : UInt32} {id : ObjectId} {serial : Serial} {format : PixelFormat}

/-! ## Values and raw values -/

theorem isIdentity_ne_zero (h : IsIdentity raw) : raw ≠ 0 := by
  rintro rfl
  obtain ⟨parts, h⟩ := h
  cases h

@[simp] theorem ObjectId.decode_ok : ObjectId.decode raw = .ok id ↔ raw = id.raw := by
  constructor
  · intro h
    unfold ObjectId.decode at h
    split at h
    · cases h
      rfl
    · cases h
  · rintro rfl
    obtain ⟨raw, parts, hpr⟩ := id
    unfold ObjectId.decode
    split
    · rfl
    · next error her =>
      rw [hpr] at her
      cases her

@[simp] theorem OutputId.decode_ok {id : OutputId} :
    OutputId.decode raw = .ok id ↔ raw = id.raw := by
  constructor
  · intro h
    unfold OutputId.decode at h
    split at h
    · cases h
      rfl
    · cases h
  · rintro rfl
    obtain ⟨raw, parts, hpr⟩ := id
    unfold OutputId.decode
    split
    · rfl
    · next error her =>
      rw [hpr] at her
      cases her

@[simp] theorem decodeObjectRequired_ok : decodeObjectRequired raw = .ok id ↔ raw = id.raw := by
  simp only [decodeObjectRequired, ite_error_eq_ok, mapError_eq_ok, ObjectId.decode_ok,
    and_iff_right_iff_imp]
  rintro rfl
  exact isIdentity_ne_zero id.valid

/-- The raw value of an optional identity. -/
def rawOf (id : Option ObjectId) : UInt32 := (id.map ObjectId.raw).getD 0

@[simp] theorem decodeObjectOptional_ok {id : Option ObjectId} :
    decodeObjectOptional raw = .ok id ↔ raw = rawOf id := by
  simp only [decodeObjectOptional, mapError_eq_ok, ObjectId.decodeOptional]
  by_cases hraw : raw = 0
  · cases id with
    | none => simp [rawOf, hraw]
    | some id =>
      have hid := isIdentity_ne_zero id.valid
      simp [rawOf, hraw, hid.symm]
  · rw [if_neg hraw]
    cases id with
    | none => simp [rawOf, hraw]
    | some id => simp [rawOf]

@[simp] theorem requiredSurface_ok {surface : SurfaceId} :
    requiredSurface raw = .ok surface ↔ raw = surface.object.raw := by
  obtain ⟨object⟩ := surface
  simp [requiredSurface]

@[simp] theorem requiredWindow_ok {window : WindowId} :
    requiredWindow raw = .ok window ↔ raw = window.object.raw := by
  obtain ⟨object⟩ := window
  simp [requiredWindow]

@[simp] theorem requiredBuffer_ok {buffer : ClientBufferId} :
    requiredBuffer raw = .ok buffer ↔ raw = buffer.object.raw := by
  obtain ⟨object⟩ := buffer
  simp [requiredBuffer]

@[simp] theorem serialRequiredRequest_ok :
    serialRequiredRequest raw = .ok serial ↔ serial.raw ≠ 0 ∧ raw = serial.raw := by
  simp only [serialRequiredRequest, ite_error_eq_ok, Except.ok.injEq]
  constructor <;> rintro ⟨h, rfl⟩ <;> exact ⟨h, rfl⟩

@[simp] theorem serialRequiredEvent_ok :
    serialRequiredEvent raw = .ok serial ↔ serial.raw ≠ 0 ∧ raw = serial.raw := by
  simp only [serialRequiredEvent, ite_error_eq_ok, Except.ok.injEq]
  constructor <;> rintro ⟨h, rfl⟩ <;> exact ⟨h, rfl⟩

section
variable {raw : UInt8}

@[simp] theorem decodeBool_ok {b : Bool} : decodeBool raw = .ok b ↔ raw = boolByte b := by
  unfold decodeBool boolByte
  split_ifs with h0 h1 <;> cases b <;> simp_all

@[simp] theorem PixelFormat.fromU8_some :
    PixelFormat.fromU8 raw = some format ↔ raw = format.toU8 := by
  constructor
  · intro h
    repeat
      rcases of_ite_eq_some h with ⟨hraw, rfl⟩ | ⟨-, h⟩
      · exact hraw
    cases h
  · rintro rfl
    cases format <;> rfl

@[simp] theorem SurfaceRole.fromU8_some {role : SurfaceRole} :
    SurfaceRole.fromU8 raw = some role ↔ raw = role.asU8 := by
  constructor
  · intro h
    repeat
      rcases of_ite_eq_some h with ⟨hraw, rfl⟩ | ⟨-, h⟩
      · exact hraw
    cases h
  · rintro rfl
    cases role <;> rfl

@[simp] theorem DecorationMode.fromU8_some {mode : DecorationMode} :
    DecorationMode.fromU8 raw = some mode ↔ raw = mode.asU8 := by
  constructor
  · intro h
    repeat
      rcases of_ite_eq_some h with ⟨hraw, rfl⟩ | ⟨-, h⟩
      · exact hraw
    cases h
  · rintro rfl
    cases mode <;> rfl

@[simp] theorem KeyState.fromU8_some {state : KeyState} :
    KeyState.fromU8 raw = some state ↔ raw = state.asU8 := by
  constructor
  · intro h
    repeat
      rcases of_ite_eq_some h with ⟨hraw, rfl⟩ | ⟨-, h⟩
      · exact hraw
    cases h
  · rintro rfl
    cases state <;> rfl

end

@[simp] theorem PointerButton.fromU16_some {raw : UInt16} {button : PointerButton} :
    PointerButton.fromU16 raw = some button ↔ raw = button.asU16 := by
  constructor
  · intro h
    repeat
      rcases of_ite_eq_some h with ⟨hraw, rfl⟩ | ⟨-, h⟩
      · exact hraw
    cases h
  · rintro rfl
    cases button <;> rfl

@[simp] theorem ProtocolError.fromU16_some {raw : UInt16} {code : ProtocolError} :
    ProtocolError.fromU16 raw = some code ↔ raw = code.code := by
  constructor
  · intro h
    repeat
      rcases of_ite_eq_some h with ⟨hraw, rfl⟩ | ⟨-, h⟩
      · exact hraw
    cases h
  · rintro rfl
    cases code <;> rfl

@[simp] theorem ResizeEdges.fromU8_some {raw : UInt8} {edges : ResizeEdges} :
    ResizeEdges.fromU8 raw = some edges ↔ raw = edges.bits := by
  obtain ⟨bits, hbt⟩ := edges
  unfold ResizeEdges.fromU8
  constructor
  · intro h
    split at h
    · cases h
      rfl
    · cases h
  · rintro rfl
    rw [dif_pos hbt]

@[simp] theorem WindowStates.fromBits_some {bits : UInt32} {states : WindowStates} :
    WindowStates.fromBits bits = some states ↔ bits = states.bits := by
  obtain ⟨bits', hbt⟩ := states
  unfold WindowStates.fromBits
  constructor
  · intro h
    split at h
    · cases h
      rfl
    · cases h
  · rintro rfl
    rw [dif_pos hbt]

@[simp] theorem Modifiers.fromBits_some {bits : UInt16} {modifiers : Modifiers} :
    Modifiers.fromBits bits = some modifiers ↔ bits = modifiers.bits := by
  obtain ⟨bits', hbt⟩ := modifiers
  unfold Modifiers.fromBits
  constructor
  · intro h
    split at h
    · cases h
      rfl
    · cases h
  · rintro rfl
    rw [dif_pos hbt]

@[simp] theorem BufferLayout.new_ok {width height stride : UInt32} {layout : BufferLayout} :
    BufferLayout.new width height stride format = .ok layout ↔ width = layout.width ∧
      height = layout.height ∧ stride = layout.strideBytes ∧ format = layout.format := by
  constructor
  · intro h
    unfold BufferLayout.new at h
    split at h
    · cases h
      exact ⟨rfl, rfl, rfl, rfl⟩
    · cases h
  · rintro ⟨rfl, rfl, rfl, rfl⟩
    obtain ⟨width, height, stride, format, hvl⟩ := layout
    unfold BufferLayout.new
    split
    · rfl
    · next error her =>
      rw [hvl] at her
      cases her

@[simp] theorem WindowTitle.fromWire_ok {len : UInt8} {bytes : Fin maxTitleBytes → UInt8}
    {title : WindowTitle} :
    WindowTitle.fromWire len bytes = .ok title ↔ len = title.len ∧ bytes = title.bytes := by
  constructor
  · intro h
    unfold WindowTitle.fromWire at h
    split at h
    · cases h
      exact ⟨rfl, rfl⟩
    · cases h
  · rintro ⟨rfl, rfl⟩
    obtain ⟨bytes, len, hvl⟩ := title
    unfold WindowTitle.fromWire
    split
    · rfl
    · next error her =>
      rw [hvl] at her
      cases her

theorem WindowTitle.len_le (title : WindowTitle) : title.len.toNat ≤ maxTitleBytes := by
  have hvl := title.valid
  simp only [checkTitle, ite_error_eq_ok] at hvl
  exact Nat.le_of_not_lt hvl.1

/-! ## Parts of a frame -/

/-- The header of a frame; a message without an object leaves the field zero. -/
def header (opcode : UInt16) (tag : UInt32) (object : Option UInt32) : List Wire.Part :=
  [.of 0 opcode, .gap 2 2, .of 4 tag, match object with
    | some raw => .of 8 raw
    | none => .gap 8 4]

theorem tiles_header (opcode : UInt16) (tag : UInt32) (object : Option UInt32) :
    Wire.Tiles headerBytes 0 (header opcode tag object) := by
  cases object <;> exact ⟨rfl, rfl, rfl, rfl, rfl⟩

variable {bytes : List UInt8} {off : Nat} {opcode : UInt16} {object : Option UInt32}
  {body : List Wire.Part}

section
variable (hlen : bytes.length = frameBytes)

include hlen in
theorem holds_reserved :
    (Wire.Part.gap 2 2).Holds bytes ↔ readU8 bytes 2 = 0 ∧ readU8 bytes 3 = 0 := by
  have hsecond : (Wire.Part.of 2 (0 : UInt8)).Holds bytes ↔ readU8 bytes 2 = 0 :=
    holds_of (by rw [hlen]; decide)
  have hthird : (Wire.Part.of 3 (0 : UInt8)).Holds bytes ↔ readU8 bytes 3 = 0 :=
    holds_of (by rw [hlen]; decide)
  rw [← hsecond, ← hthird]
  change slice bytes 2 2 = [0, 0] ↔ slice bytes 2 1 = [0] ∧ slice bytes 3 1 = [0]
  rw [slice_split bytes 2 (show 1 ≤ 2 by decide)]
  constructor
  · intro h
    exact List.append_inj h (length_slice (by rw [hlen]; decide))
  · rintro ⟨h2, h3⟩
    rw [h2, h3]
    rfl

include hlen in
theorem holds_header :
    (∀ p ∈ header opcode tag object, p.Holds bytes) ↔
      readU16Le bytes 0 = opcode ∧ (readU8 bytes 2 = 0 ∧ readU8 bytes 3 = 0) ∧
        readU32Le bytes 4 = tag ∧ readU32Le bytes 8 = object.getD 0 := by
  have hopcode : (Wire.Part.of 0 opcode).Holds bytes ↔ readU16Le bytes 0 = opcode :=
    holds_of (by rw [hlen]; decide)
  have htag : (Wire.Part.of 4 tag).Holds bytes ↔ readU32Le bytes 4 = tag :=
    holds_of (by rw [hlen]; decide)
  have hobject : ∀ raw, (Wire.Part.of 8 raw).Holds bytes ↔ readU32Le bytes 8 = raw :=
    fun raw => holds_of (by rw [hlen]; decide)
  -- a gap in the place of the object is the object zero
  have hgap : (Wire.Part.gap 8 4).Holds bytes ↔ (Wire.Part.of 8 (0 : UInt32)).Holds bytes := Iff.rfl
  cases object with
  | none =>
    simp only [header, List.forall_mem_cons, hopcode, holds_reserved hlen, htag, hgap, hobject,
      Option.getD_none, List.not_mem_nil, false_implies, implies_true, and_true]
  | some raw =>
    simp only [header, List.forall_mem_cons, hopcode, holds_reserved hlen, htag, hobject,
      Option.getD_some, List.not_mem_nil, false_implies, implies_true, and_true]

include hlen in
theorem checkRangeZero_ok {first last : Nat} (hfirst : first ≤ last) (hlast : last ≤ frameBytes) :
    checkRangeZero bytes first last = .ok () ↔ (Wire.Part.gap first (last - first)).Holds bytes := by
  rw [holds_gap (by omega)]
  simp [checkRangeZero]

include hlen in
theorem holds_u8 {v : UInt8} (h : off + 1 ≤ frameBytes) :
    (Wire.Part.of off v).Holds bytes ↔ readU8 bytes off = v :=
  holds_of (by rwa [hlen])

include hlen in
theorem holds_u16 {v : UInt16} (h : off + 2 ≤ frameBytes) :
    (Wire.Part.of off v).Holds bytes ↔ readU16Le bytes off = v :=
  holds_of (by rwa [hlen])

include hlen in
theorem holds_u32 {v : UInt32} (h : off + 4 ≤ frameBytes) :
    (Wire.Part.of off v).Holds bytes ↔ readU32Le bytes off = v :=
  holds_of (by rwa [hlen])

include hlen in
theorem holds_u64 {v : UInt64} (h : off + 8 ≤ frameBytes) :
    (Wire.Part.of off v).Holds bytes ↔ readU64Le bytes off = v :=
  holds_of (by rwa [hlen])

include hlen in
theorem holds_i32 {v : Int32} (h : off + 4 ≤ frameBytes) :
    (Wire.Part.of off v).Holds bytes ↔ readI32Le bytes off = v :=
  holds_of (by rwa [hlen])

/-- The frame of a message: its header, and the parts of its body. -/
def messageFrame (opcode : UInt16) (tag : UInt32) (object : Option UInt32)
    (body : List Wire.Part) : List UInt8 :=
  Wire.frame (header opcode tag object ++ body)

include hlen in
theorem eq_messageFrame_iff (hbody : Wire.Tiles frameBytes headerBytes body) :
    bytes = messageFrame opcode tag object body ↔
      (readU16Le bytes 0 = opcode ∧ (readU8 bytes 2 = 0 ∧ readU8 bytes 3 = 0) ∧
        readU32Le bytes 4 = tag ∧ readU32Le bytes 8 = object.getD 0) ∧
      ∀ p ∈ body, p.Holds bytes := by
  unfold messageFrame
  rw [eq_frame_iff (by rw [hlen]; exact (tiles_header opcode tag object).append hbody),
    List.forall_mem_append, holds_header hlen]

end

variable {specs : List OpcodeSpec} {α : Type}

theorem length_messageFrame (hbody : Wire.Tiles frameBytes headerBytes body) :
    (messageFrame opcode tag object body).length = frameBytes := by
  have h := ((tiles_header opcode tag object).append hbody).length_frame
  rwa [Nat.zero_add] at h

variable {object : UInt32}

/-- The prelude checks what the opcode's row of the table says. -/
theorem runDecodePrelude_ok {spec : OpcodeSpec} (hsp : lookupSpec specs opcode = some spec) :
    runDecodePrelude bytes specs opcode object = .ok () ↔
      applyObjectRule spec.object object = .ok () ∧
        ∀ pad ∈ spec.pads, checkRangeZero bytes pad.1 pad.2 = .ok () := by
  simp only [runDecodePrelude, hsp, bind_eq_ok, okOr_eq_ok, Option.some.injEq, exists_eq_left',
    forM_ok]
  constructor
  · rintro ⟨⟨⟩, hrl, hpd⟩
    exact ⟨hrl, hpd⟩
  · rintro ⟨hrl, hpd⟩
    exact ⟨(), hrl, hpd⟩

@[simp] theorem mustBeZero_ok : applyObjectRule .mustBeZero object = .ok () ↔ object = 0 := by
  simp [applyObjectRule, objectMustBeZero]

@[simp] theorem required_ok :
    applyObjectRule .required object = .ok () ↔ ∃ id : ObjectId, object = id.raw := by
  simp only [applyObjectRule, bind_eq_ok, decodeObjectRequired_ok, pure_eq_ok, and_true]

@[simp] theorem optional_ok :
    applyObjectRule .optional object = .ok () ↔ ∃ id, object = rawOf id := by
  simp only [applyObjectRule, bind_eq_ok, decodeObjectOptional_ok, pure_eq_ok, and_true]

@[simp] theorem rawEcho_ok : applyObjectRule .rawEcho object = .ok () := rfl

/-! ## Decoders -/

/-- The decoder that requests and events have in common. -/
def decodeWith {α : Type} (specs : List OpcodeSpec)
    (decodeMessage : UInt16 → UInt32 → Except ProtocolError α) (bytes : List UInt8) :
    Except DecodeError (Tagged α) := do
  checkFrameLen bytes
  checkHeaderReserved bytes
  let opcode := readU16Le bytes 0
  let tag := readU32Le bytes 4
  let object := readU32Le bytes 8
  (runDecodePrelude bytes specs opcode object).mapError (decodeError bytes)
  let message ← (decodeMessage opcode object).mapError (decodeError bytes)
  return ⟨tag, message⟩

theorem decodeWith_ok {decodeMessage : UInt16 → UInt32 → Except ProtocolError α} {m : α} :
    decodeWith specs decodeMessage bytes = .ok ⟨tag, m⟩ ↔ bytes.length = frameBytes ∧
      (readU8 bytes 2 = 0 ∧ readU8 bytes 3 = 0) ∧ readU32Le bytes 4 = tag ∧
      runDecodePrelude bytes specs (readU16Le bytes 0) (readU32Le bytes 8) = .ok () ∧
      decodeMessage (readU16Le bytes 0) (readU32Le bytes 8) = .ok m := by
  simp only [decodeWith, checkFrameLen, checkHeaderReserved, bind_eq_ok, ite_error_eq_ok, not_not,
    mapError_eq_ok, pure_eq_ok, Tagged.mk.injEq, Unique.exists_iff, PUnit.default_eq_unit, and_true]
  constructor
  · rintro ⟨hlen, hrs, hpr, _, hms, htag, rfl⟩
    exact ⟨hlen, hrs, htag, hpr, hms⟩
  · rintro ⟨hlen, hrs, htag, hpr, hms⟩
    exact ⟨hlen, hrs, hpr, m, hms, htag, rfl⟩

/-- A decoder that checks all parts of the layout its opcode stands for accepts the frames of that
layout and nothing else. -/
theorem decodeWith_ok_iff {decodeMessage : List UInt8 → UInt16 → UInt32 → Except ProtocolError α}
    {opcode : α → UInt16} {object : α → Option UInt32} {body : α → List Wire.Part}
    {Accepted : α → Prop} (hbody : ∀ m, Wire.Tiles frameBytes headerBytes (body m))
    (hopcode : ∀ op raw, Yields (decodeMessage bytes op raw) fun m => opcode m = op)
    (hac : bytes.length = frameBytes → ∀ m raw,
      (runDecodePrelude bytes specs (opcode m) raw = .ok () ∧
          decodeMessage bytes (opcode m) raw = .ok m) ↔
        Accepted m ∧ raw = (object m).getD 0 ∧ ∀ p ∈ body m, p.Holds bytes) {m : α} :
    decodeWith specs (decodeMessage bytes) bytes = .ok ⟨tag, m⟩ ↔
      Accepted m ∧ bytes = messageFrame (opcode m) tag (object m) (body m) := by
  rw [decodeWith_ok]
  constructor
  · rintro ⟨hlen, hrs, htag, hpr, hms⟩
    have hop := hopcode _ _ m hms
    rw [← hop] at hpr hms
    obtain ⟨hap, hobject, hpt⟩ := (hac hlen m _).1 ⟨hpr, hms⟩
    exact ⟨hap, (eq_messageFrame_iff hlen (hbody m)).2 ⟨⟨hop.symm, hrs, htag, hobject⟩, hpt⟩⟩
  · rintro ⟨hap, hfr⟩
    have hlen : bytes.length = frameBytes := by rw [hfr, length_messageFrame (hbody m)]
    obtain ⟨⟨hop, hrs, htag, hobject⟩, hpt⟩ := (eq_messageFrame_iff hlen (hbody m)).1 hfr
    rw [hop]
    exact ⟨hlen, hrs, htag, (hac hlen m _).2 ⟨hap, hobject, hpt⟩⟩

end CleanSlate.Graphics
