import CleanSlate.Graphics.Request
import CleanSlate.Graphics.Verify.Frame

/-!
# Requests on the wire

The layout of every request, as parts of a frame. `encode` writes the frame of a request it accepts
(`encode_ok`), and `decode` accepts exactly the frames of such requests, in the one form it gives
them (`decode_ok`): no rectangles behind the count, and no acknowledgement of serial zero.
-/

namespace CleanSlate.Graphics

open Lib List Function Wire

variable {raw : UInt32} {rects : Fin regionRectsPerFrame → Rect} {count : UInt8}
  {replace opaqueRegion : Bool} {ack : Option Serial}

namespace Request

/-! ## Layouts -/

/-- The object field of a request that has one. -/
def object : Request → Option UInt32
  | hello .. | registerBuffer .. | createSurface => none
  | unregisterBuffer buffer => some buffer.object.raw
  | destroySurface surface | assignRole surface .. | attach surface .. | damage surface ..
  | setOpaqueRegion surface .. | setInputRegion surface .. | commit surface ..
  | createWindow surface => some surface.object.raw
  | destroyWindow window | setTitle window .. | setSizeLimits window .. | showWindow window
  | hideWindow window | beginMove window .. | beginResize window .. | ackConfigure window .. =>
    some window.object.raw

/-- A slot of the damage array. -/
def damageSlot (rects : Fin damageRectsPerFrame → BufferRect) (count : UInt8)
    (i : Fin damageRectsPerFrame) : List Wire.Part :=
  if i.val < count.toNat then
    [.of (16 + 8 * i.val) (rects i).x, .of (16 + 8 * i.val + 2) (rects i).y,
      .of (16 + 8 * i.val + 4) (rects i).width, .of (16 + 8 * i.val + 6) (rects i).height]
  else [.gap (16 + 8 * i.val) 8]

/-- A slot of a region's array. -/
def regionSlot (rects : Fin regionRectsPerFrame → Rect) (count : UInt8)
    (i : Fin regionRectsPerFrame) : List Wire.Part :=
  if i.val < count.toNat then
    [.of (16 + 16 * i.val) (rects i).x, .of (16 + 16 * i.val + 4) (rects i).y,
      .of (16 + 16 * i.val + 8) (rects i).width, .of (16 + 16 * i.val + 12) (rects i).height]
  else [.gap (16 + 16 * i.val) 16]

/-- The body of a request. -/
def body : Request → List Wire.Part
  | hello version features =>
    [.of 12 version.major, .of 14 version.minor, .of 16 features.bits, .gap 24 40]
  | registerBuffer layout =>
    [.of 12 layout.width, .of 16 layout.height, .of 20 layout.strideBytes,
      .of 24 layout.format.toU8, .gap 25 39]
  | assignRole _ role parent =>
    [.of 12 role.asU8, .gap 13 3, .of 16 (rawOf (parent.map SurfaceId.object)), .gap 20 44]
  | attach _ buffer bufferScale =>
    [.of 12 (rawOf (buffer.map ClientBufferId.object)), .of 16 bufferScale.raw, .gap 18 46]
  | damage _ rects count =>
    [.of 12 count, .gap 13 3] ++
      ((List.finRange damageRectsPerFrame).flatMap (damageSlot rects count) ++ [.gap 56 8])
  | setOpaqueRegion _ rects count replace | setInputRegion _ rects count replace =>
    [.of 12 count, .of 13 (boolByte replace), .gap 14 2] ++
      (List.finRange regionRectsPerFrame).flatMap (regionSlot rects count)
  | commit _ requestFrame _ ack =>
    [.of 12 (boolByte requestFrame), .of 13 (0 : UInt8), .gap 14 2,
      .of 16 ((ack.map Serial.raw).getD 0), .gap 20 44]
  | setTitle _ title => [.of 12 title.len, .field 13 (List.ofFn title.bytes), .gap 53 11]
  | setSizeLimits _ min max =>
    [.of 12 min.width, .of 16 min.height, .of 20 max.width, .of 24 max.height, .gap 28 36]
  | beginMove _ serial | ackConfigure _ serial => [.of 12 serial.raw, .gap 16 48]
  | beginResize _ serial edges => [.of 12 serial.raw, .of 16 edges.bits, .gap 17 47]
  | unregisterBuffer _ | createSurface | destroySurface _ | createWindow _ | destroyWindow _
  | showWindow _ | hideWindow _ => [.gap 12 52]

theorem tiles_damageSlot (rects : Fin damageRectsPerFrame → BufferRect) (count : UInt8)
    (i : Fin damageRectsPerFrame) :
    Wire.Tiles (16 + 8 * i.val + 8) (16 + 8 * i.val) (damageSlot rects count i) := by
  unfold damageSlot
  split
  · exact ⟨rfl, rfl, rfl, rfl, rfl⟩
  · exact ⟨rfl, rfl⟩

theorem tiles_regionSlot (rects : Fin regionRectsPerFrame → Rect) (count : UInt8)
    (i : Fin regionRectsPerFrame) :
    Wire.Tiles (16 + 16 * i.val + 16) (16 + 16 * i.val) (regionSlot rects count i) := by
  unfold regionSlot
  split
  · exact ⟨rfl, rfl, rfl, rfl, rfl⟩
  · exact ⟨rfl, rfl⟩

theorem tiles_region (rects : Fin regionRectsPerFrame → Rect) (count : UInt8) (replace : Bool) :
    Wire.Tiles frameBytes headerBytes ([.of 12 count, .of 13 (boolByte replace), .gap 14 2] ++
      (finRange regionRectsPerFrame).flatMap (regionSlot rects count)) := by
  have hfr : Wire.Tiles 16 headerBytes
      [.of 12 count, .of 13 (boolByte replace), .gap 14 2] := ⟨rfl, rfl, rfl, rfl⟩
  exact hfr.append (tiles_flatMap _ (tiles_regionSlot rects count))

theorem tiles_body (r : Request) : Wire.Tiles frameBytes headerBytes r.body := by
  cases r with
  | damage surface rects count =>
    have hfr : Wire.Tiles 16 headerBytes [.of 12 count, .gap 13 3] := ⟨rfl, rfl, rfl⟩
    have hls : Wire.Tiles frameBytes (16 + 8 * damageRectsPerFrame) [.gap 56 8] := ⟨rfl, rfl⟩
    exact hfr.append ((tiles_flatMap _ (tiles_damageSlot rects count)).append hls)
  | setOpaqueRegion surface rects count replace => exact tiles_region rects count replace
  | setInputRegion surface rects count replace => exact tiles_region rects count replace
  | setTitle window title =>
    have hsz : (ofFn title.bytes).length = 40 := length_ofFn
    refine ⟨rfl, rfl, ?_⟩
    change Wire.Tiles frameBytes (13 + (ofFn title.bytes).length) [.gap 53 11]
    exact ⟨rfl, rfl⟩
  | setSizeLimits | commit | registerBuffer => exact ⟨rfl, rfl, rfl, rfl, rfl, rfl⟩
  | hello | assignRole => exact ⟨rfl, rfl, rfl, rfl, rfl⟩
  | attach | beginResize => exact ⟨rfl, rfl, rfl, rfl⟩
  | beginMove | ackConfigure => exact ⟨rfl, rfl, rfl⟩
  | unregisterBuffer | createSurface | destroySurface | createWindow | destroyWindow | showWindow
  | hideWindow => exact ⟨rfl, rfl⟩

/-! ## Encoding -/

/-- A region's rectangles up to its count lie in the coordinate range. -/
def ValidRegion (rects : Fin regionRectsPerFrame → Rect) (count : UInt8) : Prop :=
  count.toNat ≤ regionRectsPerFrame ∧ ∀ i, i.val < count.toNat → (rects i).validate = .ok (rects i)

/-- What an encoder checks that the types do not say already. -/
def Valid : Request → Prop
  | attach _ _ bufferScale => bufferScale.raw ≠ 0
  | damage _ _ count => count.toNat ≤ damageRectsPerFrame
  | setOpaqueRegion _ rects count _ | setInputRegion _ rects count _ => ValidRegion rects count
  | setSizeLimits _ min max => validateSizeLimits min max = .ok ()
  | beginMove _ serial | beginResize _ serial _ | ackConfigure _ serial => serial.raw ≠ 0
  | _ => True

theorem encodeOptionalId_ok {id : Option ObjectId} :
    encodeOptionalId id = .ok raw ↔ raw = rawOf id := by
  change (if rawOf id ≠ 0 then _ else Except.ok (rawOf id)) = _ ↔ _
  split
  · next hraw =>
    cases id with
    | none => exact absurd rfl hraw
    | some id =>
      have hdc : decodeObjectRequired (rawOf (some id)) = .ok id := decodeObjectRequired_ok.2 rfl
      simp only [bind_eq_ok, pure_eq_ok]
      constructor
      · rintro ⟨_, -, rfl⟩
        rfl
      · rintro rfl
        exact ⟨id, hdc, rfl⟩
  · rw [Except.ok.injEq, eq_comm]

theorem validate_ok {r r' : Rect} (h : r.validate = .ok r') : r' = r := by
  simp only [Rect.validate, ite_error_eq_ok, bind_eq_ok, pure_eq_ok] at h
  obtain ⟨-, _, -, _, -, rfl⟩ := h
  rfl

theorem foldl_damage (rects : Fin damageRectsPerFrame → BufferRect) (count : UInt8)
    (out : List UInt8) :
    (finRange damageRectsPerFrame).foldl
        (fun out i => if i.val < count.toNat then writeBufferRect out (16 + 8 * i.val) (rects i)
          else out) out =
      spliceAll out (fields ((finRange damageRectsPerFrame).flatMap (damageSlot rects count))) := by
  rw [← foldl_spliceAll_fields]
  refine foldl_ext _ _ _ fun out i _ => ?_
  unfold damageSlot
  split <;> rfl

variable {out' out bytes : List UInt8} {tag : UInt32} {m : Request}

/-- The loop that checks and writes the rectangles of a region. -/
theorem foldlM_region (items : List (Fin regionRectsPerFrame)) : items.foldlM (fun out i =>
          if i.val < count.toNat then do
            let _ ← (rects i).validate.mapError fun _ => ProtocolError.invalidRegion
            return writeRect out (16 + 16 * i.val) (rects i)
          else .ok out) out = .ok out' ↔
      (∀ i ∈ items, i.val < count.toNat → (rects i).validate = .ok (rects i)) ∧
        spliceAll out (fields (items.flatMap (regionSlot rects count))) = out' := by
  rw [← foldl_spliceAll_fields]
  induction items generalizing out with
  | nil => simp [pure, Except.pure]
  | cons i items ih =>
    rw [foldlM_cons, bind_eq_ok, forall_mem_cons, foldl_cons]
    by_cases hi : i.val < count.toNat
    · have hsl : spliceAll out (fields (regionSlot rects count i)) =
          writeRect out (16 + 16 * i.val) (rects i) := by
        unfold regionSlot
        rw [if_pos hi]
        rfl
      simp only [hi, if_true, bind_eq_ok, mapError_eq_ok, pure_eq_ok, ih, hsl, true_implies]
      constructor
      · rintro ⟨_, ⟨r, hvl, rfl⟩, hrs, hout⟩
        exact ⟨⟨by rw [hvl, validate_ok hvl], hrs⟩, hout⟩
      · rintro ⟨⟨hvl, hrs⟩, hout⟩
        exact ⟨_, ⟨_, hvl, rfl⟩, hrs, hout⟩
    · have hsl : spliceAll out (fields (regionSlot rects count i)) = out := by
        unfold regionSlot
        rw [if_neg hi]
        rfl
      simp only [hi, if_false, Except.ok.injEq, exists_eq_left', ih, hsl, false_implies, true_and]

theorem encodeSerial_ok {serial : Serial} :
    encodeSerial out serial = .ok out' ↔ serial.raw ≠ 0 ∧ writeU32Le out 12 serial.raw = out' := by
  simp only [encodeSerial, bind_eq_ok, serialRequiredRequest_ok, pure_eq_ok]
  constructor
  · rintro ⟨_, ⟨hsr, heq⟩, hout⟩
    exact ⟨by rwa [heq], hout⟩
  · rintro ⟨hsr, hout⟩
    exact ⟨serial, ⟨hsr, rfl⟩, hout⟩

/-- What `encode` writes for a region. -/
theorem encodeRegionBody_ok :
    encodeRegionBody out rects count replace = .ok out' ↔ ValidRegion rects count ∧
      spliceAll out (fields ([.of 12 count, .of 13 (boolByte replace), .gap 14 2] ++
        (finRange regionRectsPerFrame).flatMap (regionSlot rects count))) = out' := by
  simp only [encodeRegionBody, ite_error_eq_ok, foldlM_region, mem_finRange, true_implies,
    ValidRegion, and_assoc, Nat.not_lt]
  rfl

/-- `encode` accepts the valid requests, and writes their frame. -/
theorem encode_ok {r : Request} :
    r.encode tag = .ok out ↔ r.Valid ∧ messageFrame r.opcode tag r.object r.body = out := by
  have hfr : messageFrame r.opcode tag r.object r.body = spliceAll (replicate frameBytes 0)
        (fields (header r.opcode tag r.object ++ r.body)) :=
    (spliceAll_fields ((tiles_header r.opcode tag r.object).append r.tiles_body)).symm
  rw [hfr]
  cases r with
  | registerBuffer layout =>
    simp only [encode, encodeRegisterBufferBody, bind_eq_ok, okOr_eq_ok, mapError_eq_ok,
      pure_eq_ok, PixelFormat.fromU8_some, BufferLayout.new_ok, Valid, true_and]
    constructor
    · rintro ⟨_, -, _, -, hout⟩
      exact hout
    · intro hout
      exact ⟨_, rfl, layout, ⟨rfl, rfl, rfl, rfl⟩, hout⟩
  | assignRole surface role parent =>
    have hrl : SurfaceRole.fromU8 role.asU8 = some role := SurfaceRole.fromU8_some.2 rfl
    simp only [encode, encodeAssignRoleBody, hrl, Option.isNone_some, Bool.false_eq_true,
      if_false, bind_eq_ok, encodeOptionalId_ok, pure_eq_ok, exists_eq_left, Valid, true_and]
    rfl
  | attach surface buffer bufferScale =>
    simp only [encode, encodeAttachBody, bind_eq_ok, encodeOptionalId_ok, ite_error_eq_ok,
      Except.ok.injEq, exists_eq_left, Valid]
    rfl
  | damage surface rects count =>
    simp only [encode, encodeDamageBody, ite_error_eq_ok, Except.ok.injEq, foldl_damage, Nat.not_lt,
      Valid, body, spliceAll_fields_append]
    rfl
  | setOpaqueRegion | setInputRegion =>
    simp only [encode, encodeRegionBody_ok, Valid, body, spliceAll_fields_append]
    rfl
  | setSizeLimits window min max =>
    simp only [encode, encodeSetSizeLimitsBody, bind_eq_ok, pure_eq_ok, Valid]
    constructor
    · rintro ⟨⟨⟩, hvl, hout⟩
      exact ⟨hvl, hout⟩
    · rintro ⟨hvl, hout⟩
      exact ⟨(), hvl, hout⟩
  | beginMove window serial | ackConfigure window serial =>
    simp only [encode, encodeSerial_ok, Valid]
    rfl
  | beginResize window serial edges =>
    have hed : ResizeEdges.fromU8 edges.bits = some edges := ResizeEdges.fromU8_some.2 rfl
    simp only [encode, bind_eq_ok, encodeSerial_ok, hed, Option.isNone_some, Bool.false_eq_true,
      if_false, pure_eq_ok, Valid]
    constructor
    · rintro ⟨_, ⟨hsr, rfl⟩, hout⟩
      exact ⟨hsr, hout⟩
    · rintro ⟨hsr, hout⟩
      exact ⟨_, ⟨hsr, rfl⟩, hout⟩
  | _ =>
    simp only [encode, encodeHelloBody, encodeCommitBody, encodeSetTitleBody, Except.ok.injEq, Valid,
      true_and]
    rfl

/-! ## Decoding -/

/-- The form in which `decode` gives a request. -/
def canonical : Request → Request
  | damage surface rects count =>
    damage surface (fun i => if i.val < count.toNat then rects i else ⟨0, 0, 0, 0⟩) count
  | setOpaqueRegion surface rects count replace =>
    setOpaqueRegion surface (fun i => if i.val < count.toNat then rects i else ⟨0, 0, 0, 0⟩) count
      replace
  | setInputRegion surface rects count replace =>
    setInputRegion surface (fun i => if i.val < count.toNat then rects i else ⟨0, 0, 0, 0⟩) count
      replace
  | commit surface requestFrame colorSpace ack =>
    commit surface requestFrame colorSpace (ack.bind fun serial => serialOptional serial.raw)
  | r => r

theorem filled_iff {α : Type} {n count : Nat} {rects read : Fin n → α} {zero : α}
    {blank : Fin n → Prop} :
    ((∀ i, ¬ i.val < count → blank i) ∧ (fun i => if i.val < count then read i else zero) = rects) ↔
      (fun i => if i.val < count then rects i else zero) = rects ∧
        ∀ i, if i.val < count then read i = rects i else blank i := by
  constructor
  · rintro ⟨hbl, rfl⟩
    refine ⟨funext fun i => ?_, fun i => ?_⟩ <;> by_cases hi : i.val < count <;> simp [hi, hbl]
  · rintro ⟨hcn, hsl⟩
    refine ⟨fun i hi => by simpa [hi] using hsl i, ?_⟩
    rw [← hcn]
    refine funext fun i => ?_
    have hst := hsl i
    by_cases hi : i.val < count
    · simpa [hi] using hst
    · simp [hi]

theorem serialOptional_eq_iff : serialOptional raw = ack ↔
      (ack.bind fun serial => serialOptional serial.raw) = ack ∧
        raw = (ack.map Serial.raw).getD 0 := by
  unfold serialOptional
  constructor
  · rintro rfl
    by_cases hraw : raw = 0 <;> simp [hraw]
  · rintro ⟨hack, rfl⟩
    cases ack with
    | none => rfl
    | some serial => simpa using hack

variable {surface surface' : SurfaceId}

section
variable (hlen : bytes.length = frameBytes)

include hlen in
theorem holds_damageSlot {rects : Fin damageRectsPerFrame → BufferRect}
    (i : Fin damageRectsPerFrame) :
    (∀ p ∈ damageSlot rects count i, p.Holds bytes) ↔
      if i.val < count.toNat then readBufferRect bytes (16 + 8 * i.val) = rects i
      else checkRangeZero bytes (16 + 8 * i.val) (16 + 8 * i.val + 8) = .ok () := by
  have hin : 16 + 8 * i.val + 8 ≤ frameBytes := by
    have hi : i.val < 5 := i.isLt
    change _ ≤ 64
    omega
  unfold damageSlot
  split
  · generalize rects i = r
    obtain ⟨x, y, width, height⟩ := r
    simp (disch := omega) [holds_u16 hlen, readBufferRect]
  · rw [checkRangeZero_ok hlen (by omega) hin]
    simp

include hlen in
theorem holds_regionSlot (i : Fin regionRectsPerFrame) :
    (∀ p ∈ regionSlot rects count i, p.Holds bytes) ↔
      if i.val < count.toNat then readRect bytes (16 + 16 * i.val) = rects i
      else checkRangeZero bytes (16 + 16 * i.val) (16 + 16 * i.val + 16) = .ok () := by
  have hin : 16 + 16 * i.val + 16 ≤ frameBytes := by
    have hi : i.val < 3 := i.isLt
    change _ ≤ 64
    omega
  unfold regionSlot
  split
  · generalize rects i = r
    obtain ⟨x, y, width, height⟩ := r
    simp (disch := omega) [holds_i32 hlen, holds_u32 hlen, readRect]
  · rw [checkRangeZero_ok hlen (by omega) hin, Nat.add_sub_cancel_left]
    simp

include hlen in
theorem decodeDamageBody_ok {rects : Fin damageRectsPerFrame → BufferRect} :
    decodeDamageBody bytes surface = .ok (damage surface' rects count) ↔
      count.toNat ≤ damageRectsPerFrame ∧ surface = surface' ∧ readU8 bytes 12 = count ∧
        (fun i => if i.val < count.toNat then rects i else ⟨0, 0, 0, 0⟩) = rects ∧
        ∀ i, ∀ p ∈ damageSlot rects count i, p.Holds bytes := by
  simp only [holds_damageSlot hlen, ← filled_iff]
  simp only [decodeDamageBody, ite_error_eq_ok, bind_eq_ok, forM_ok, pure_eq_ok, mem_finRange,
    true_implies, Unique.exists_iff, PUnit.default_eq_unit, damage.injEq, Nat.not_lt]
  constructor
  · rintro ⟨hle, hblank, rfl, hrects, rfl⟩
    refine ⟨hle, rfl, rfl, fun i hi => ?_, hrects⟩
    have hslot := hblank i
    rwa [if_neg (Nat.not_lt.2 hi)] at hslot
  · rintro ⟨hle, rfl, rfl, hblank, hrects⟩
    refine ⟨hle, fun i => ?_, rfl, hrects, rfl⟩
    split
    · rfl
    · next hi => exact hblank i (Nat.not_lt.1 hi)

/-- Which request a region body decodes to. -/
def region (opaqueRegion : Bool) (surface : SurfaceId) (rects : Fin regionRectsPerFrame → Rect)
    (count : UInt8) (replace : Bool) : Request :=
  if opaqueRegion then setOpaqueRegion surface rects count replace
  else setInputRegion surface rects count replace

theorem region_inj {replace' : Bool} {rects' : Fin regionRectsPerFrame → Rect} {count' : UInt8} :
    region opaqueRegion surface rects count replace =
        region opaqueRegion surface' rects' count' replace' ↔
      surface = surface' ∧ rects = rects' ∧ count = count' ∧ replace = replace' := by
  cases opaqueRegion <;> simp [region]

include hlen in
theorem decodeRegionBody_ok : decodeRegionBody bytes surface opaqueRegion =
        .ok (region opaqueRegion surface' rects count replace) ↔
      ValidRegion rects count ∧ surface = surface' ∧ readU8 bytes 12 = count ∧
        readU8 bytes 13 = boolByte replace ∧
        (fun i => if i.val < count.toNat then rects i else ⟨0, 0, 0, 0⟩) = rects ∧
        ∀ i, ∀ p ∈ regionSlot rects count i, p.Holds bytes := by
  have hpure : ∀ surface rects count replace,
      (if opaqueRegion then pure (setOpaqueRegion surface rects count replace)
        else pure (setInputRegion surface rects count replace) : Except ProtocolError Request) =
      pure (region opaqueRegion surface rects count replace) := by
    intros
    cases opaqueRegion <;> rfl
  simp only [decodeRegionBody, hpure, ite_error_eq_ok, bind_eq_ok, decodeBool_ok, forM_ok,
    pure_eq_ok, mem_finRange, true_implies, Unique.exists_iff, PUnit.default_eq_unit,
    region_inj, Nat.not_lt]
  constructor
  · rintro ⟨hle, _, hreplace, hslots, rfl, hrects, rfl, rfl⟩
    have hfilled := filled_iff.1 ⟨fun i hi => by simpa [hi] using hslots i, hrects⟩
    refine ⟨⟨hle, fun i hi => ?_⟩, rfl, rfl, hreplace, hfilled.1, fun i =>
      (holds_regionSlot hlen i).2 (hfilled.2 i)⟩
    have hslot := hslots i
    have hread := hfilled.2 i
    rw [if_pos hi] at hslot hread
    simp only [bind_eq_ok, mapError_eq_ok] at hslot
    obtain ⟨r, hvalid, -⟩ := hslot
    rw [← hread, hvalid, validate_ok hvalid]
  · rintro ⟨⟨hle, hvalid⟩, rfl, rfl, hreplace, hcanonical, hslots⟩
    have hfilled := filled_iff.2 ⟨hcanonical, fun i => (holds_regionSlot hlen i).1 (hslots i)⟩
    refine ⟨hle, replace, hreplace, fun i => ?_, rfl, hfilled.2, rfl, rfl⟩
    split
    · next hi =>
      have hread := (holds_regionSlot hlen i).1 (hslots i)
      rw [if_pos hi] at hread
      rw [hread, hvalid i hi]
      rfl
    · next hi => exact hfilled.1 i hi

theorem decodeAssignRoleBody_ok {role : SurfaceRole} {parent : Option SurfaceId} :
    decodeAssignRoleBody bytes surface = .ok (assignRole surface' role parent) ↔
      surface = surface' ∧ readU8 bytes 12 = role.asU8 ∧
        readU32Le bytes 16 = rawOf (parent.map SurfaceId.object) := by
  simp only [decodeAssignRoleBody, bind_eq_ok, okOr_eq_ok, SurfaceRole.fromU8_some,
    decodeObjectOptional_ok, pure_eq_ok, assignRole.injEq]
  constructor
  · rintro ⟨_, hrl, parent, hpr, rfl, rfl, rfl⟩
    exact ⟨rfl, hrl, by simpa [comp_def] using hpr⟩
  · rintro ⟨rfl, hrl, hpr⟩
    exact ⟨_, hrl, _, hpr, rfl, rfl, by simp [comp_def]⟩

theorem decodeAttachBody_ok {buffer : Option ClientBufferId} {bufferScale : Scale120} :
    decodeAttachBody bytes surface = .ok (attach surface' buffer bufferScale) ↔
      bufferScale.raw ≠ 0 ∧ surface = surface' ∧
        readU32Le bytes 12 = rawOf (buffer.map ClientBufferId.object) ∧
        readU16Le bytes 16 = bufferScale.raw := by
  obtain ⟨scale⟩ := bufferScale
  simp only [decodeAttachBody, bind_eq_ok, decodeObjectOptional_ok, ite_error_eq_ok,
    Except.ok.injEq, attach.injEq, Scale120.mk.injEq]
  constructor
  · rintro ⟨buffer, hbf, hsc, rfl, rfl, rfl⟩
    exact ⟨hsc, rfl, by simpa [comp_def] using hbf, rfl⟩
  · rintro ⟨hsc, rfl, hbf, rfl⟩
    exact ⟨_, hbf, hsc, rfl, by simp [comp_def], rfl⟩

theorem decodeCommitBody_ok {requestFrame : Bool} {colorSpace : ColorSpace} :
    decodeCommitBody bytes surface = .ok (commit surface' requestFrame colorSpace ack) ↔
      surface = surface' ∧ readU8 bytes 12 = boolByte requestFrame ∧ readU8 bytes 13 = 0 ∧
        (ack.bind fun serial => serialOptional serial.raw) = ack ∧
        readU32Le bytes 16 = (ack.map Serial.raw).getD 0 := by
  rw [← serialOptional_eq_iff]
  simp only [decodeCommitBody, bind_eq_ok, decodeBool_ok, ite_error_eq_ok, not_not, Except.ok.injEq,
    commit.injEq]
  constructor
  · rintro ⟨_, hfr, hsp, rfl, rfl, -, hack⟩
    exact ⟨rfl, hfr, hsp, hack⟩
  · rintro ⟨rfl, hfr, hsp, hack⟩
    exact ⟨_, hfr, hsp, rfl, rfl, trivial, hack⟩

include hlen in
theorem decodeSetTitleBody_ok {window window' : WindowId} {title : WindowTitle} :
    decodeSetTitleBody bytes window = .ok (setTitle window' title) ↔
      window = window' ∧ readU8 bytes 12 = title.len ∧
        (Wire.Part.field 13 (ofFn title.bytes)).Holds bytes := by
  rw [holds_ofFn (by rw [hlen]; decide)]
  simp only [decodeSetTitleBody, ite_error_eq_ok, bind_eq_ok, pure_eq_ok, WindowTitle.fromWire_ok,
    setTitle.injEq]
  constructor
  · rintro ⟨-, _, ⟨hlen, hbytes⟩, rfl, rfl⟩
    exact ⟨rfl, hlen, hbytes⟩
  · rintro ⟨rfl, hlen, hbytes⟩
    exact ⟨by rw [hlen]; exact Nat.not_lt.2 title.len_le, title, ⟨hlen, hbytes⟩, rfl, rfl⟩

include hlen in
attribute [local simp] bind_eq_ok okOr_eq_ok mapError_eq_ok pure_eq_ok Valid canonical object
  body requiredBuffer_ok requiredSurface_ok requiredWindow_ok serialRequiredRequest_ok
  PixelFormat.fromU8_some BufferLayout.new_ok ResizeEdges.fromU8_some decodeHelloBody
  decodeRegisterBufferBody decodeAssignRoleBody_ok decodeAttachBody_ok decodeCommitBody_ok
  decodeSetSizeLimitsBody in
theorem accepts_iff (m : Request) : (runDecodePrelude bytes requestSpecs m.opcode raw = .ok () ∧
        decodeMessage bytes m.opcode raw = .ok m) ↔
      m.Valid ∧ m.canonical = m ∧ raw = m.object.getD 0 ∧ ∀ p ∈ m.body, p.Holds bytes := by
  cases m
  case' hello version features =>
    obtain ⟨major, minor⟩ := version
    obtain ⟨bits⟩ := features
  case' setSizeLimits window min max =>
    obtain ⟨minWidth, minHeight⟩ := min
    obtain ⟨maxWidth, maxHeight⟩ := max
  case' setOpaqueRegion surface rects count replace =>
    change _ ∧ _ = Except.ok (region true surface rects count replace) ↔ _
  case' setInputRegion surface rects count replace =>
    change _ ∧ _ = Except.ok (region false surface rects count replace) ↔ _
  -- the row of the opcode table, and the decoder of the opcode
  all_goals
    rw [runDecodePrelude_ok (by exact rfl)]
    simp +decide only [decodeMessage, opcode, ↓reduceIte]
    simp (disch := decide) [-bind_pure_comp, checkRangeZero_ok hlen, decodeDamageBody_ok hlen,
      decodeRegionBody_ok hlen, decodeSetTitleBody_ok hlen, holds_u8 hlen, holds_u16 hlen,
      holds_u32 hlen, holds_u64 hlen]
  case commit surface requestFrame colorSpace ack =>
    constructor
    · rintro ⟨⟨-, hpad, hrest⟩, hobject, hframe, hspace, hcanonical, hack⟩
      exact ⟨hcanonical, hobject, hframe, hspace, hpad, hack, hrest⟩
    · rintro ⟨hcanonical, hobject, hframe, hspace, hpad, hack, hrest⟩
      exact ⟨⟨⟨_, hobject⟩, hpad, hrest⟩, hobject, hframe, hspace, hcanonical, hack⟩
  all_goals grind

end

/-- `decode` goes by the opcode of the frame. -/
theorem decodeMessage_yields (bytes : List UInt8) (op : UInt16) (raw : UInt32) :
    Yields (decodeMessage bytes op raw) fun m => m.opcode = op := by
  -- one goal for each opcode; what its decoder returns is built with that opcode
  repeat' refine yields_ite (fun h => h ▸ ?_) fun _ => ?_
  all_goals repeat' first
    | exact yields_error
    | exact yields_ok rfl
    | exact yields_map fun _ => rfl
    | refine yields_bind fun _ => ?_
    | refine yields_ite (fun _ => ?_) fun _ => ?_

/-- `decode` accepts the frames of valid requests, and gives them in their canonical form. -/
theorem decode_ok : decode bytes = .ok ⟨tag, m⟩ ↔ (m.Valid ∧ m.canonical = m) ∧
      bytes = messageFrame m.opcode tag m.object m.body :=
  decodeWith_ok_iff tiles_body (decodeMessage_yields bytes)
    fun hlen m _ => (accepts_iff hlen m).trans and_assoc.symm

/-- The canonical form is the same request on the wire. -/
theorem messageFrame_canonical (m : Request) (tag : UInt32) :
    messageFrame m.canonical.opcode tag m.canonical.object m.canonical.body =
      messageFrame m.opcode tag m.object m.body := by
  cases m with
  | damage surface rects count =>
    have hslot : damageSlot (fun i => if i.val < count.toNat then rects i else ⟨0, 0, 0, 0⟩) count =
        damageSlot rects count := by
      refine funext fun i => ?_
      by_cases hi : i.val < count.toNat <;> simp [damageSlot, hi]
    simp only [canonical, opcode, object, body, hslot]
  | setOpaqueRegion surface rects count replace | setInputRegion surface rects count replace =>
    have hslot : regionSlot (fun i => if i.val < count.toNat then rects i else ⟨0, 0, 0, 0⟩) count =
        regionSlot rects count := by
      refine funext fun i => ?_
      by_cases hi : i.val < count.toNat <;> simp [regionSlot, hi]
    simp only [canonical, opcode, object, body, hslot]
  | commit surface requestFrame colorSpace ack =>
    have hack : ((ack.bind fun serial => serialOptional serial.raw).map Serial.raw).getD 0 =
        (ack.map Serial.raw).getD 0 := by
      cases ack with
      | none => rfl
      | some serial => by_cases hraw : serial.raw = 0 <;> simp [serialOptional, hraw]
    simp only [canonical, opcode, object, body, hack]
  | _ => rfl

theorem canonical_canonical (m : Request) : m.canonical.canonical = m.canonical := by
  cases m with
  | damage _ _ count | setOpaqueRegion _ _ count _ | setInputRegion _ _ count _ =>
    simp only [canonical, damage.injEq, setOpaqueRegion.injEq, setInputRegion.injEq, true_and,
      and_true]
    refine funext fun i => ?_
    by_cases hi : i.val < count.toNat <;> simp [hi]
  | commit surface requestFrame colorSpace ack =>
    simp only [canonical, commit.injEq, true_and]
    cases ack with
    | none => rfl
    | some serial => by_cases hraw : serial.raw = 0 <;> simp [serialOptional, hraw]
  | _ => rfl

theorem Valid.canonical (h : m.Valid) : m.canonical.Valid := by
  cases m with
  | setOpaqueRegion surface rects count replace | setInputRegion surface rects count replace =>
    refine ⟨h.1, fun i hi => ?_⟩
    have hrc := h.2 i hi
    simpa only [if_pos hi] using hrc
  | _ => exact h

theorem encode_of_decode (h : decode bytes = .ok ⟨tag, m⟩) : m.encode tag = .ok bytes := by
  obtain ⟨⟨hvalid, -⟩, hframe⟩ := decode_ok.1 h
  exact encode_ok.2 ⟨hvalid, hframe.symm⟩

theorem decode_of_encode (h : m.encode tag = .ok bytes) :
    decode bytes = .ok ⟨tag, m.canonical⟩ := by
  obtain ⟨hvalid, hframe⟩ := encode_ok.1 h
  refine decode_ok.2 ⟨⟨hvalid.canonical, m.canonical_canonical⟩, ?_⟩
  rw [messageFrame_canonical, hframe]

end Request

end CleanSlate.Graphics
