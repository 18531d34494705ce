import CleanSlate.Lib.Bytes
import Mathlib.Data.List.OfFn
import Mathlib.Data.List.Pairwise

/-!
# Frames of fixed layout

A `Scalar` is a type whose values take a fixed number of bytes. A frame is cut into parts, one
after the other: fields, and gaps that stay zero. Writing the fields of a layout into a zeroed
buffer gives the frame (`spliceAll_fields`), and a buffer is the frame exactly when every part
reads as it should, the gaps included (`eq_frame_iff`). So a decoder that checks every part of a
layout accepts only frames an encoder of that layout writes.
-/

namespace CleanSlate.Lib.Wire

/-! ## Scalars -/

/-- A type whose values are written in `width` bytes, every such sequence being one of them. -/
class Scalar (α : Type) where
  width : Nat
  put : α → List UInt8
  get : List UInt8 → α
  length_put : ∀ a, (put a).length = width
  get_put : ∀ a, get (put a) = a
  put_get : ∀ bytes, bytes.length = width → put (get bytes) = bytes

open Scalar List

instance : Scalar UInt8 where
  width := 1
  put a := [a]
  get bytes := bytes.headD 0
  length_put _ := rfl
  get_put _ := rfl
  put_get bytes h := by
    obtain ⟨a, rfl⟩ := List.length_eq_one_iff.1 h
    rfl

instance : Scalar UInt16 where
  width := 2
  put a := toLe 2 a.toNat
  get bytes := UInt16.ofNat (ofLe bytes)
  length_put a := length_toLe 2 a.toNat
  get_put a := by
    rw [ofLe_toLe_of_lt a.toNat_lt]
    exact UInt16.ofNat_toNat
  put_get bytes h := by
    rw [UInt16.toNat_ofNat']
    exact toLe_ofLe_mod h

instance : Scalar UInt32 where
  width := 4
  put a := toLe 4 a.toNat
  get bytes := UInt32.ofNat (ofLe bytes)
  length_put a := length_toLe 4 a.toNat
  get_put a := by
    rw [ofLe_toLe_of_lt a.toNat_lt]
    exact UInt32.ofNat_toNat
  put_get bytes h := by
    rw [UInt32.toNat_ofNat']
    exact toLe_ofLe_mod h

instance : Scalar UInt64 where
  width := 8
  put a := toLe 8 a.toNat
  get bytes := UInt64.ofNat (ofLe bytes)
  length_put a := length_toLe 8 a.toNat
  get_put a := by
    rw [ofLe_toLe_of_lt a.toNat_lt]
    exact UInt64.ofNat_toNat
  put_get bytes h := by
    rw [UInt64.toNat_ofNat']
    exact toLe_ofLe_mod h

instance : Scalar Int32 where
  width := 4
  put a := put a.toUInt32
  get bytes := Int32.ofUInt32 (get bytes)
  length_put a := length_put a.toUInt32
  get_put a := by rw [get_put]
  put_get bytes h := put_get bytes h

section
variable {α : Type} [Scalar α]

def read (buffer : List UInt8) (off : Nat) : α := get (slice buffer off (width α))

def write (buffer : List UInt8) (off : Nat) (a : α) : List UInt8 := splice buffer off (put a)

theorem read_eq_iff {buffer : List UInt8} {off : Nat} {a : α} (h : off + width α ≤ buffer.length) :
    read buffer off = a ↔ slice buffer off (width α) = put a := by
  unfold read
  constructor
  · rintro rfl
    exact (put_get _ (length_slice h)).symm
  · intro hsl
    rw [hsl, get_put]

end

/-! ## Layouts -/

/-- A part of a frame. -/
inductive Part where
  | field (off : Nat) (bytes : List UInt8)
  | gap (off len : Nat)

namespace Part

/-- The field of a scalar. -/
def of {α : Type} [Scalar α] (off : Nat) (a : α) : Part := .field off (put a)

def off : Part → Nat
  | field off _ | gap off _ => off

def bytes : Part → List UInt8
  | field _ bytes => bytes
  | gap _ len => List.replicate len 0

/-- The buffer has the part where it belongs. -/
def Holds (p : Part) (buffer : List UInt8) : Prop := slice buffer p.off p.bytes.length = p.bytes

end Part

variable {buffer : List UInt8} {off last : Nat} {parts : List Part}

theorem holds_of {α : Type} [Scalar α] {a : α} (h : off + width α ≤ buffer.length) :
    (Part.of off a).Holds buffer ↔ read buffer off = a := by
  rw [read_eq_iff h]
  change slice buffer off (put a).length = put a ↔ _
  rw [length_put]

theorem holds_gap {len : Nat} (h : off + len ≤ buffer.length) :
    (Part.gap off len).Holds buffer ↔ ∀ byte ∈ slice buffer off len, byte = 0 := by
  unfold Part.Holds
  simp only [Part.off, Part.bytes, length_replicate]
  rw [eq_replicate_iff, length_slice h]
  exact and_iff_right rfl

theorem holds_ofFn {n : Nat} {f : Fin n → UInt8} (h : off + n ≤ buffer.length) :
    (Part.field off (ofFn f)).Holds buffer ↔ (fun i => read buffer (off + i.val)) = f := by
  have hrd : slice buffer off n = ofFn fun i : Fin n => (read buffer (off + i.val)) := by
    refine ext_getElem (by rw [length_slice h, length_ofFn]) fun i hi hi' => ?_
    have hin : i < n := by rwa [length_ofFn] at hi'
    rw [List.getElem_ofFn]
    change _ = (slice buffer (off + i) 1).headD 0
    simp only [slice, getElem_take, getElem_drop, headD_eq_head?_getD, head?_take, head?_drop]
    rw [getElem?_eq_getElem (by omega)]
    rfl
  change slice buffer off (ofFn f).length = ofFn f ↔ _
  rw [length_ofFn, hrd, ofFn_inj]

/-- The fields of a layout, with their offsets. -/
def fields (parts : List Part) : List (Nat × List UInt8) := parts.filterMap fun
    | .field off bytes => some (off, bytes)
    | .gap _ _ => none

def frame (parts : List Part) : List UInt8 := (parts.map Part.bytes).flatten

/-- The parts follow one another from offset `off` to offset `last`. -/
def Tiles (last : Nat) : Nat → List Part → Prop
  | off, [] => off = last
  | off, p :: parts => p.off = off ∧ Tiles last (off + p.bytes.length) parts

theorem Tiles.bounds (h : Tiles last off parts) :
    off ≤ last ∧ ∀ p ∈ parts, off ≤ p.off ∧ p.off + p.bytes.length ≤ last := by
  induction parts generalizing off with
  | nil => exact ⟨Nat.le_of_eq h, by simp⟩
  | cons p parts ih =>
    obtain ⟨hoff, hrs⟩ := h
    obtain ⟨hle, hin⟩ := ih hrs
    refine ⟨by omega, fun q hq => ?_⟩
    rcases mem_cons.1 hq with rfl | hq
    · omega
    · have hq := hin q hq
      omega

theorem Tiles.append {mid : Nat} {rest : List Part} (h : Tiles mid off parts)
    (hrs : Tiles last mid rest) : Tiles last off (parts ++ rest) := by
  induction parts generalizing off with
  | nil =>
    have hoff : off = mid := h
    rw [hoff]
    exact hrs
  | cons p parts ih => exact ⟨h.1, ih h.2⟩

theorem tiles_flatMap {n w : Nat} (group : Fin n → List Part)
    (h : ∀ i : Fin n, Tiles (off + w * i + w) (off + w * i) (group i)) :
    Tiles (off + w * n) off ((finRange n).flatMap group) := by
  induction n generalizing off with
  | zero => rfl
  | succ n ih =>
    have hfr : Tiles (off + w) off (group 0) := by simpa using h 0
    have hsh : ∀ i : Fin n, Tiles (off + w + w * i + w) (off + w + w * i) (group i.succ) := by
      intro i
      have hi := h i.succ
      have hw : w * i.succ = w + w * i := by
        rw [Fin.val_succ, Nat.mul_succ, Nat.add_comm]
      rw [hw, ← Nat.add_assoc] at hi
      exact hi
    rw [finRange_succ, flatMap_cons, flatMap_map]
    refine hfr.append ?_
    have hls : off + w + w * n = off + w * (n + 1) := by
      rw [Nat.mul_succ]
      omega
    rw [← hls]
    exact ih (fun i => group i.succ) hsh

theorem Tiles.pairwise (h : Tiles last off parts) :
    parts.Pairwise fun p q => p.off + p.bytes.length ≤ q.off := by
  induction parts generalizing off with
  | nil => exact List.Pairwise.nil
  | cons p parts ih =>
    obtain ⟨hoff, hrs⟩ := h
    refine List.Pairwise.cons (fun q hq => ?_) (ih hrs)
    have hq := (hrs.bounds.2 q hq).1
    omega

/-- From `off` on, the buffer is the frame exactly when it has every part. -/
theorem drop_eq_frame_iff (h : Tiles buffer.length off parts) :
    buffer.drop off = frame parts ↔ ∀ p ∈ parts, p.Holds buffer := by
  induction parts generalizing off with
  | nil =>
    have hoff : off = buffer.length := h
    subst hoff
    simp [frame]
  | cons p parts ih =>
    obtain ⟨hoff, hrs⟩ := h
    have hbn := hrs.bounds.1
    have hsp : buffer.drop off =
        slice buffer off p.bytes.length ++ buffer.drop (off + p.bytes.length) := by
      rw [slice, ← drop_drop, take_append_drop]
    have hln : (slice buffer off p.bytes.length).length = p.bytes.length := length_slice hbn
    have hfr : frame (p :: parts) = p.bytes ++ frame parts := rfl
    rw [hsp, hfr, forall_mem_cons, ← ih hrs, Part.Holds, hoff]
    exact ⟨fun he => append_inj he hln, fun he => by rw [he.1, he.2]⟩

theorem eq_frame_iff (h : Tiles buffer.length 0 parts) :
    buffer = frame parts ↔ ∀ p ∈ parts, p.Holds buffer := by
  rw [← drop_eq_frame_iff h, drop_zero]

theorem Tiles.length_frame (h : Tiles last off parts) : off + (frame parts).length = last := by
  induction parts generalizing off with
  | nil => exact h
  | cons p parts ih =>
    have hrs := ih h.2
    have hfr : frame (p :: parts) = p.bytes ++ frame parts := rfl
    rw [hfr, length_append]
    omega

theorem mem_fields {bytes : List UInt8} :
    (off, bytes) ∈ fields parts ↔ Part.field off bytes ∈ parts := by
  unfold fields
  rw [mem_filterMap]
  constructor
  · rintro ⟨p, hp, heq⟩
    cases p with
    | field off bytes =>
      cases heq
      exact hp
    | gap off len => cases heq
  · exact fun h => ⟨_, h, rfl⟩

theorem spliceAll_fields_append (buffer : List UInt8) (parts rest : List Part) :
    spliceAll buffer (fields (parts ++ rest)) =
      spliceAll (spliceAll buffer (fields parts)) (fields rest) := by
  unfold fields
  rw [filterMap_append]
  exact foldl_append

/-- Writing group after group writes all their fields. -/
theorem foldl_spliceAll_fields {β : Type} (group : β → List Part) (items : List β)
    (buffer : List UInt8) :
    items.foldl (fun buffer i => spliceAll buffer (fields (group i))) buffer =
      spliceAll buffer (fields (items.flatMap group)) := by
  induction items generalizing buffer with
  | nil => rfl
  | cons i items ih =>
    rw [foldl_cons, ih, flatMap_cons, spliceAll_fields_append]

theorem Tiles.fit (h : Tiles last off parts) : FieldsFit last (fields parts) :=
  fun _ hfl => (h.bounds.2 _ (mem_fields.1 hfl)).2

theorem Tiles.apart (h : Tiles last off parts) : (fields parts).Pairwise FieldsApart := by
  refine List.Pairwise.filterMap _ (fun p q hpq a ha b hb => ?_) h.pairwise
  cases p with
  | gap => cases ha
  | field off bytes =>
    cases q with
    | gap => cases hb
    | field off' bytes' =>
      cases ha
      cases hb
      exact .inl hpq

theorem Tiles.disjoint (h : Tiles last off parts) {p q : Part} (hp : p ∈ parts) (hq : q ∈ parts)
    (hne : p ≠ q) : p.off + p.bytes.length ≤ q.off ∨ q.off + q.bytes.length ≤ p.off := by
  have hpr : parts.Pairwise fun p q =>
      p.off + p.bytes.length ≤ q.off ∨ q.off + q.bytes.length ≤ p.off :=
    h.pairwise.imp Or.inl
  have : Std.Symm fun p q : Part =>
      p.off + p.bytes.length ≤ q.off ∨ q.off + q.bytes.length ≤ p.off :=
    ⟨fun _ _ => Or.symm⟩
  exact hpr.forall hp hq hne

/-- Writing the fields of a layout into a zeroed buffer gives the frame. -/
theorem spliceAll_fields (h : Tiles last 0 parts) :
    spliceAll (replicate last 0) (fields parts) = frame parts := by
  have hfit : FieldsFit (replicate last (0 : UInt8)).length (fields parts) := by
    rw [length_replicate]
    exact h.fit
  have hlen : (spliceAll (replicate last 0) (fields parts)).length = last := by
    rw [length_spliceAll hfit, length_replicate]
  refine (eq_frame_iff (by rw [hlen]; exact h)).2 fun p hp => ?_
  cases p with
  | field off bytes =>
    exact slice_spliceAll hfit h.apart (mem_fields.2 hp) rfl
  | gap off len =>
    -- no field reaches into a gap
    have hds : ∀ field ∈ fields parts, off + len ≤ field.1 ∨ field.1 + field.2.length ≤ off := by
      intro field hfl
      have hap := h.disjoint hp (mem_fields.1 hfl) fun he => by cases he
      simpa only [Part.off, Part.bytes, length_replicate] using hap
    have hbn := (h.bounds.2 _ hp).2
    unfold Part.Holds
    simp only [Part.off, Part.bytes, length_replicate] at hbn ⊢
    rw [slice_spliceAll_of_disjoint hfit hds, slice, drop_replicate,
      take_replicate, Nat.min_eq_left (by omega)]

end CleanSlate.Lib.Wire
