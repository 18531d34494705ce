import CleanSlate.Graphics.Geometry
import Mathlib.Algebra.Order.Floor.Ring
import Mathlib.Data.Int.ConditionallyCompleteOrder
import Mathlib.Data.Set.Lattice
import Mathlib.Data.Set.Prod
import Mathlib.Order.Interval.Set.LinearOrder

/-!
# Rectangles as sets of pixels

What the operations on rectangles do to the pixels in them. Clipping is exact; a set of rectangles
keeps all pixels it is given, and keeps exactly these as long as it has room. Overflow does not
occur for rectangles inside of a surface.
-/

namespace CleanSlate.Graphics

open Lib List UInt32

variable {a b : Int32} {r : Rect} {rects : List Rect}

abbrev Pixel := Int × Int

variable {p : Pixel}

/-! ## Integers -/

theorem toInt_max (a b : Int32) : (max a b).toInt = max a.toInt b.toInt := by
  change (if a ≤ b then b else a).toInt = _
  simp only [Int32.le_iff_toInt_le]
  split <;> omega

theorem toInt_min (a b : Int32) : (min a b).toInt = min a.toInt b.toInt := by
  change (if a ≤ b then a else b).toInt = _
  simp only [Int32.le_iff_toInt_le]
  split <;> omega

theorem checkedSub_some {c : Int32} (h : checkedSub a b = some c) :
    c.toInt = a.toInt - b.toInt := by
  unfold checkedSub at h
  split at h
  · next hrn =>
    cases h
    simp only [i32Min, i32Max] at hrn
    exact Int32.toInt_ofInt_of_le (by omega) (by omega)
  · cases h

theorem checkedSub_of_range (hmin : i32Min ≤ a.toInt - b.toInt)
    (hmax : a.toInt - b.toInt ≤ i32Max) :
    ∃ c, checkedSub a b = some c ∧ c.toInt = a.toInt - b.toInt := by
  have h : checkedSub a b = some (Int32.ofInt (a.toInt - b.toInt)) := if_pos ⟨hmin, hmax⟩
  exact ⟨_, h, checkedSub_some h⟩

theorem u32OfI32_of_nonneg (h : 0 ≤ a.toInt) :
    ∃ v, u32OfI32 a = .ok v ∧ (v.toNat : Int) = a.toInt := by
  refine ⟨UInt32.ofNat a.toInt.toNat, if_neg (by omega), ?_⟩
  have hlt := a.toInt_lt
  rw [toNat_ofNat_of_lt' (by change _ < 2 ^ 32; omega)]
  omega

/-! ## Rectangles -/

namespace Rect

/-- The rectangle ends inside of the coordinate range. -/
structure Valid (r : Rect) : Prop where
  width : (r.width.toNat : Int) ≤ i32Max
  height : (r.height.toNat : Int) ≤ i32Max
  right : r.x.toInt + r.width.toNat ≤ i32Max
  bottom : r.y.toInt + r.height.toNat ≤ i32Max

theorem checkedEnd_of_le {start : Int32} {extent : UInt32} (hex : (extent.toNat : Int) ≤ i32Max)
    (h : start.toInt + extent.toNat ≤ i32Max) :
    ∃ v, checkedEnd start extent = .ok v ∧ v.toInt = start.toInt + extent.toNat := by
  refine ⟨Int32.ofInt (start.toInt + extent.toNat), ?_, ?_⟩
  · unfold checkedEnd
    rw [if_neg (by omega), if_neg (by omega)]
  · have hst := start.le_toInt
    simp only [i32Max] at h
    exact Int32.toInt_ofInt_of_le (by omega) (by omega)

theorem Valid.checkedRight (h : r.Valid) :
    ∃ v, r.checkedRight = .ok v ∧ v.toInt = r.x.toInt + r.width.toNat :=
  checkedEnd_of_le h.width h.right

theorem Valid.checkedBottom (h : r.Valid) :
    ∃ v, r.checkedBottom = .ok v ∧ v.toInt = r.y.toInt + r.height.toNat :=
  checkedEnd_of_le h.height h.bottom

theorem Valid.validate (h : r.Valid) : r.validate = .ok r := by
  obtain ⟨_, hrg, -⟩ := h.checkedRight
  obtain ⟨_, hbt, -⟩ := h.checkedBottom
  have hwd := h.width
  have hhg := h.height
  unfold Rect.validate
  rw [if_neg (by omega), hrg, hbt]
  rfl

theorem of_validate {r' : Rect} (h : r.validate = .ok r') : r.Valid := by
  simp only [Rect.validate, Rect.checkedRight, Rect.checkedBottom, checkedEnd, ite_error_eq_ok,
    bind_eq_ok] at h
  exact ⟨by omega, by omega, by omega, by omega⟩

/-- The pixels of a rectangle. -/
def pixels (r : Rect) : Set Pixel :=
  Set.Ico r.x.toInt (r.x.toInt + r.width.toNat) ×ˢ Set.Ico r.y.toInt (r.y.toInt + r.height.toNat)

theorem mem_pixels : p ∈ r.pixels ↔ (r.x.toInt ≤ p.1 ∧ p.1 < r.x.toInt + r.width.toNat) ∧
      r.y.toInt ≤ p.2 ∧ p.2 < r.y.toInt + r.height.toNat :=
  Iff.rfl

theorem isEmpty_iff : r.isEmpty ↔ r.width.toNat = 0 ∨ r.height.toNat = 0 := by
  simp only [isEmpty, decide_eq_true_eq, ← UInt32.toNat_inj]
  rfl

theorem pixels_of_isEmpty (h : r.isEmpty) : r.pixels = ∅ := by
  rw [isEmpty_iff] at h
  refine Set.eq_empty_iff_forall_notMem.2 fun p hp => ?_
  rw [mem_pixels] at hp
  omega

/-- The rectangle has pixels, all of them in an area of the given size. -/
structure Within (size : Size) (r : Rect) : Prop where
  left : 0 ≤ r.x.toInt
  top : 0 ≤ r.y.toInt
  right : r.x.toInt + r.width.toNat ≤ size.width.toNat
  bottom : r.y.toInt + r.height.toNat ≤ size.height.toNat
  wide : 0 < r.width.toNat
  high : 0 < r.height.toNat

theorem Within.not_isEmpty {size : Size} (h : r.Within size) : r.isEmpty = false := by
  rw [← Bool.not_eq_true, isEmpty_iff]
  have hwd := h.wide
  have hhg := h.high
  omega

end Rect

/-- The size can be that of a surface. -/
def Size.Small (size : Size) : Prop :=
  size.width.toNat ≤ maxSurfaceExtent ∧ size.height.toNat ≤ maxSurfaceExtent

/-- The pixels of an area. -/
def Size.pixels (size : Size) : Set Pixel := (Rect.ofSize size).pixels

variable {size : Size}

theorem Size.mem_pixels :
    p ∈ size.pixels ↔ (0 ≤ p.1 ∧ p.1 < size.width.toNat) ∧ 0 ≤ p.2 ∧ p.2 < size.height.toNat := by
  unfold Size.pixels
  rw [Rect.mem_pixels]
  simp [Rect.ofSize]

namespace Rect

theorem Within.valid (hsz : size.Small) (h : r.Within size) : r.Valid := by
  obtain ⟨hwd, hhg⟩ := hsz
  obtain ⟨hlf, htop, hrg, hbt, -, -⟩ := h
  simp only [maxSurfaceExtent] at hwd hhg
  constructor <;> simp only [i32Max] <;> omega

theorem Within.mono {size' : Size} (h : r.Within size) (hwd : size.width.toNat ≤ size'.width.toNat)
    (hhg : size.height.toNat ≤ size'.height.toNat) : r.Within size' := by
  obtain ⟨hlf, htop, hrg, hbt, hwi, hhh⟩ := h
  exact ⟨hlf, htop, by omega, by omega, hwi, hhh⟩

theorem ofSize_within (hwd : 0 < size.width.toNat) (hhg : 0 < size.height.toNat) :
    (ofSize size).Within size :=
  ⟨Int.le_refl 0, Int.le_refl 0, by simp [ofSize], by simp [ofSize], hwd, hhg⟩

/-- The pixels of a rectangle that may be missing. -/
def pixelsOf : Option Rect → Set Pixel
  | some r => r.pixels
  | none => ∅

/-- What lies between two corners that are not too far apart. -/
theorem between_ok {left top right bottom : Int32} (hx : right.toInt - left.toInt ≤ i32Max)
    (hy : bottom.toInt - top.toInt ≤ i32Max) :
    ∃ result, between left top right bottom = .ok result ∧
      pixelsOf result = Set.Ico left.toInt right.toInt ×ˢ Set.Ico top.toInt bottom.toInt ∧
      ∀ r ∈ result, r.x = left ∧ r.y = top ∧ (0 < r.width.toNat ∧ 0 < r.height.toNat) ∧
        left.toInt + r.width.toNat = right.toInt ∧ top.toInt + r.height.toNat = bottom.toInt := by
  -- nothing is between corners in the wrong order, also when their difference underflows
  have hem : (right.toInt ≤ left.toInt ∨ bottom.toInt ≤ top.toInt) →
      pixelsOf none = Set.Ico left.toInt right.toInt ×ˢ Set.Ico top.toInt bottom.toInt := by
    rintro (h | h)
    · rw [Set.Ico_eq_empty (by omega), Set.empty_prod]
      rfl
    · rw [Set.Ico_eq_empty (a := top.toInt) (by omega), Set.prod_empty]
      rfl
  have hnn : ∀ {a b : Int32}, a.toInt - b.toInt ≤ i32Max → checkedSub a b = none →
      a.toInt ≤ b.toInt := by
    intro a b hmax h
    by_contra hlt
    obtain ⟨c, hc, -⟩ := checkedSub_of_range (by simp only [i32Min]; omega) hmax
    rw [h] at hc
    cases hc
  unfold between
  cases hw : checkedSub right left with
  | none => exact ⟨none, rfl, hem (.inl (hnn hx hw)), fun _ h => by cases h⟩
  | some w =>
    have hw' := checkedSub_some hw
    dsimp only
    by_cases hpos : w.toInt > 0
    · rw [if_neg (not_not.2 hpos)]
      cases hh : checkedSub bottom top with
      | none => exact ⟨none, rfl, hem (.inr (hnn hy hh)), fun _ h => by cases h⟩
      | some h =>
        have hh' := checkedSub_some hh
        dsimp only
        by_cases hpos' : h.toInt > 0
        · obtain ⟨width, hwd, hwd'⟩ := u32OfI32_of_nonneg (a := w) (by omega)
          obtain ⟨height, hhg, hhg'⟩ := u32OfI32_of_nonneg (a := h) (by omega)
          refine ⟨some ⟨left, top, width, height⟩, ?_, ?_, ?_⟩
          · rw [if_neg (not_not.2 hpos'), hwd, hhg]
            rfl
          · change Set.Ico _ _ ×ˢ Set.Ico _ _ = _
            rw [hwd', hhg', hw', hh', add_sub_cancel, add_sub_cancel]
          · rintro _ ⟨⟩
            refine ⟨rfl, rfl, ⟨?_, ?_⟩, ?_, ?_⟩ <;> dsimp only <;> omega
        · exact ⟨none, if_pos hpos', hem (.inr (by omega)), fun _ h => by cases h⟩
    · exact ⟨none, if_pos hpos, hem (.inl (by omega)), fun _ h => by cases h⟩

theorem intersect_of_valid {a b : Rect} (ha : a.Valid) (hb : b.Valid) :
    ∃ result, a.intersect b = .ok result ∧ pixelsOf result = a.pixels ∩ b.pixels ∧
      ∀ r ∈ result, r.x.toInt = max a.x.toInt b.x.toInt ∧ r.y.toInt = max a.y.toInt b.y.toInt ∧
        (0 < r.width.toNat ∧ 0 < r.height.toNat) ∧
        r.x.toInt + r.width.toNat = min (a.x.toInt + a.width.toNat) (b.x.toInt + b.width.toNat) ∧
        r.y.toInt + r.height.toNat =
          min (a.y.toInt + a.height.toNat) (b.y.toInt + b.height.toNat) := by
  obtain ⟨ra, hra, hra'⟩ := ha.checkedRight
  obtain ⟨rb, hrb, hrb'⟩ := hb.checkedRight
  obtain ⟨ba, hba, hba'⟩ := ha.checkedBottom
  obtain ⟨bb, hbb, hbb'⟩ := hb.checkedBottom
  have hwd := ha.width
  have hhg := ha.height
  have hlf := toInt_max a.x b.x
  have htop := toInt_max a.y b.y
  have hrg := toInt_min ra rb
  have hbt := toInt_min ba bb
  obtain ⟨result, hrs, hpx, hrc⟩ :=
    @between_ok (max a.x b.x) (max a.y b.y) (min ra rb) (min ba bb) (by omega) (by omega)
  refine ⟨result, ?_, ?_, ?_⟩
  · unfold intersect
    rw [ha.validate, hb.validate, hra, hrb, hba, hbb]
    exact hrs
  · rw [hpx, hlf, htop, hrg, hbt, hra', hrb', hba', hbb', ← Set.Ico_inter_Ico,
      ← Set.Ico_inter_Ico, ← Set.prod_inter_prod]
    rfl
  · intro r hr
    obtain ⟨hx, hy, hpos, hxe, hye⟩ := hrc r hr
    rw [hx, hy]
    omega

theorem clipTo_of_valid (hr : r.Valid) (hsz : size.Small) :
    ∃ result, r.clipTo size = .ok result ∧ pixelsOf result = r.pixels ∩ size.pixels ∧
      ∀ c ∈ result, c.Within size := by
  have hwd : size.width.toNat ≤ i32Max := by
    have h := hsz.1
    simp only [maxSurfaceExtent, i32Max] at h ⊢
    omega
  have hhg : size.height.toNat ≤ i32Max := by
    have h := hsz.2
    simp only [maxSurfaceExtent, i32Max] at h ⊢
    omega
  unfold clipTo
  rw [if_neg (by omega), hr.validate]
  by_cases hem : r.isEmpty
  · refine ⟨none, by simp only [hem]; rfl, ?_, fun _ h => by cases h⟩
    rw [pixels_of_isEmpty hem, Set.empty_inter]
    rfl
  · have hcl : (ofSize size).Valid :=
      ⟨hwd, hhg, by simpa [ofSize] using hwd, by simpa [ofSize] using hhg⟩
    obtain ⟨result, hrs, hpx, hrc⟩ := intersect_of_valid hr hcl
    refine ⟨result, ?_, hpx, fun c hc => ?_⟩
    · simp only [hem, hcl.validate]
      exact hrs
    · obtain ⟨hx, hy, ⟨hwi, hhh⟩, hxe, hye⟩ := hrc c hc
      simp only [ofSize, Int32.toInt_zero, Int.zero_add] at hx hy hxe hye
      exact ⟨by omega, by omega, by omega, by omega, hwi, hhh⟩

/-- The bounds of two rectangles in a surface cover both. -/
theorem unionBounds_of_within (hsz : size.Small) {a b : Rect} (ha : a.Within size)
    (hb : b.Within size) :
    ∃ c, a.unionBounds b = .ok c ∧ c.Within size ∧ a.pixels ∪ b.pixels ⊆ c.pixels := by
  obtain ⟨ra, hra, hra'⟩ := (ha.valid hsz).checkedRight
  obtain ⟨rb, hrb, hrb'⟩ := (hb.valid hsz).checkedRight
  obtain ⟨ba, hba, hba'⟩ := (ha.valid hsz).checkedBottom
  obtain ⟨bb, hbb, hbb'⟩ := (hb.valid hsz).checkedBottom
  have hlf := toInt_min a.x b.x
  have htop := toInt_min a.y b.y
  have hrg := toInt_max ra rb
  have hbm := toInt_max ba bb
  obtain ⟨hal, hat, har, hab, haw, hah⟩ := id ha
  obtain ⟨hbl, hbt, hbr, hbb'', hbw, hbh⟩ := id hb
  obtain ⟨hwd, hhg⟩ := hsz
  simp only [maxSurfaceExtent] at hwd hhg
  obtain ⟨w, hw, hw'⟩ := checkedSub_of_range (a := max ra rb) (b := min a.x b.x)
    (by simp only [i32Min]; omega) (by simp only [i32Max]; omega)
  obtain ⟨h, hh, hh'⟩ := checkedSub_of_range (a := max ba bb) (b := min a.y b.y)
    (by simp only [i32Min]; omega) (by simp only [i32Max]; omega)
  obtain ⟨width, hwd', hwd''⟩ := u32OfI32_of_nonneg (a := w) (by omega)
  obtain ⟨height, hhg', hhg''⟩ := u32OfI32_of_nonneg (a := h) (by omega)
  refine ⟨⟨min a.x b.x, min a.y b.y, width, height⟩, ?_, ?_, ?_⟩
  · unfold unionBounds
    rw [ha.not_isEmpty, hb.not_isEmpty, hra, hrb, hba, hbb]
    simp only [Bool.false_eq_true, if_false, bind_eq_ok, Except.ok.injEq, exists_eq_left', hw, hh,
      okOr_eq_ok, Option.some.injEq, ite_error_eq_ok, hwd', hhg', pure_eq_ok, and_true]
    omega
  · constructor <;> dsimp only <;> omega
  · rintro p (hp | hp) <;> rw [mem_pixels] at hp ⊢ <;> dsimp only <;> omega

end Rect

/-! ## Damage rectangles -/

theorem u16OfU32_of_lt {a : UInt32} (h : a.toNat < 2 ^ 16) :
    ∃ v, u16OfU32 a = some v ∧ v.toNat = a.toNat :=
  ⟨UInt16.ofNat a.toNat, if_pos h, UInt16.toNat_ofNat_of_lt' h⟩

theorem toNat_min (a b : UInt32) : (min a b).toNat = min a.toNat b.toNat := by
  change (if a ≤ b then a else b).toNat = _
  simp only [le_iff_toNat_le]
  split <;> omega

namespace BufferRect

theorem toInt_ofInt_toNat (v : UInt16) : (Int32.ofInt v.toNat).toInt = v.toNat := by
  have hlt := v.toNat_lt
  exact Int32.toInt_ofInt_of_le (by omega) (by omega)

theorem mem_pixels_toRect {r : BufferRect} :
    p ∈ r.toRect.pixels ↔ ((r.x.toNat : Int) ≤ p.1 ∧ p.1 < r.x.toNat + r.width.toNat) ∧
      (r.y.toNat : Int) ≤ p.2 ∧ p.2 < r.y.toNat + r.height.toNat := by
  rw [Rect.mem_pixels]
  simp only [toRect, toInt_ofInt_toNat, UInt16.toNat_toUInt32]

theorem toNat_clip {start extent : UInt16} {bound : UInt32} (h : start.toUInt32 < bound) :
    (min (start.toUInt32 + extent.toUInt32) bound - start.toUInt32).toNat =
      min (start.toNat + extent.toNat) bound.toNat - start.toNat := by
  have hst := start.toNat_lt
  have hex := extent.toNat_lt
  have hsum : (start.toUInt32 + extent.toUInt32).toNat = start.toNat + extent.toNat := by
    rw [UInt32.toNat_add, UInt16.toNat_toUInt32, UInt16.toNat_toUInt32, Nat.mod_eq_of_lt (by omega)]
  rw [lt_iff_toNat_lt, UInt16.toNat_toUInt32] at h
  have hle : start.toUInt32 ≤ min (start.toUInt32 + extent.toUInt32) bound := by
    rw [le_iff_toNat_le, toNat_min, UInt16.toNat_toUInt32]
    omega
  rw [UInt32.toNat_sub_of_le _ _ hle, toNat_min, hsum, UInt16.toNat_toUInt32]

/-- Clipping a damage rectangle is exact. -/
theorem clipToExtent_exact (r : BufferRect) (size : Size) :
    Rect.pixelsOf ((r.clipToExtent size.width size.height).map toRect) =
        r.toRect.pixels ∩ size.pixels ∧
      ∀ c ∈ r.clipToExtent size.width size.height, c.toRect.Within size := by
  have hx := r.x.toNat_lt
  have hy := r.y.toNat_lt
  have hwd := r.width.toNat_lt
  have hhg := r.height.toNat_lt
  -- a rectangle of which nothing is left
  have hnn : (∀ p, p ∈ r.toRect.pixels → p ∉ size.pixels) →
      Rect.pixelsOf (none.map toRect) = r.toRect.pixels ∩ size.pixels ∧
        ∀ c ∈ (none : Option BufferRect), c.toRect.Within size := by
    refine fun h => ⟨?_, fun _ hc => by cases hc⟩
    exact (Set.eq_empty_iff_forall_notMem.2 fun p hp => h p hp.1 hp.2).symm
  unfold clipToExtent
  by_cases hem : r.width = 0 ∨ r.height = 0
  · rw [if_pos hem]
    refine hnn fun p hp => ?_
    rw [mem_pixels_toRect] at hp
    simp only [← UInt16.toNat_inj, UInt16.toNat_zero] at hem
    omega
  by_cases hout : r.x.toUInt32 ≥ size.width ∨ r.y.toUInt32 ≥ size.height
  · rw [if_neg hem, if_pos hout]
    refine hnn fun p hp hp' => ?_
    rw [mem_pixels_toRect] at hp
    rw [Size.mem_pixels] at hp'
    simp only [ge_iff_le, le_iff_toNat_le, UInt16.toNat_toUInt32] at hout
    omega
  have hxin : r.x.toUInt32 < size.width := UInt32.not_le.1 fun h => hout (.inl h)
  have hyin : r.y.toUInt32 < size.height := UInt32.not_le.1 fun h => hout (.inr h)
  have hw := @toNat_clip r.x r.width _ hxin
  have hh := @toNat_clip r.y r.height _ hyin
  rw [if_neg hem, if_neg hout]
  simp only [← UInt16.toNat_inj, UInt16.toNat_zero] at hem
  simp only [ge_iff_le, le_iff_toNat_le, UInt16.toNat_toUInt32] at hout
  generalize min (r.x.toUInt32 + r.width.toUInt32) size.width - r.x.toUInt32 = w at hw
  generalize min (r.y.toUInt32 + r.height.toUInt32) size.height - r.y.toUInt32 = h at hh
  obtain ⟨x, hx', hx''⟩ := u16OfU32_of_lt (a := r.x.toUInt32) (by rw [UInt16.toNat_toUInt32]; omega)
  obtain ⟨y, hy', hy''⟩ := u16OfU32_of_lt (a := r.y.toUInt32) (by rw [UInt16.toNat_toUInt32]; omega)
  obtain ⟨width, hw', hw''⟩ := u16OfU32_of_lt (a := w) (by omega)
  obtain ⟨height, hh', hh''⟩ := u16OfU32_of_lt (a := h) (by omega)
  rw [UInt16.toNat_toUInt32] at hx'' hy''
  rw [if_neg (by simp only [← UInt32.toNat_inj, UInt32.toNat_zero]; omega), hx', hy', hw', hh']
  refine ⟨?_, ?_⟩
  · ext p
    change p ∈ (toRect ⟨x, y, width, height⟩).pixels ↔ p ∈ r.toRect.pixels ∧ p ∈ size.pixels
    rw [mem_pixels_toRect, mem_pixels_toRect, Size.mem_pixels]
    dsimp only
    omega
  · rintro _ ⟨⟩
    constructor <;> simp only [toRect, toInt_ofInt_toNat, UInt16.toNat_toUInt32] <;> omega

end BufferRect

/-! ## Lists of rectangles -/

/-- The pixels of some rectangles. -/
def cover (rects : List Rect) : Set Pixel := {p | ∃ r ∈ rects, p ∈ r.pixels}

@[simp] theorem cover_nil : cover [] = ∅ := by
  simp [cover]

@[simp] theorem cover_cons (r : Rect) (rects : List Rect) :
    cover (r :: rects) = r.pixels ∪ cover rects := by
  ext p
  simp [cover]

@[simp] theorem cover_append (rects rects' : List Rect) :
    cover (rects ++ rects') = cover rects ∪ cover rects' := by
  ext p
  simp [cover, or_and_right, exists_or]

/-- What clipping leaves of some rectangles. -/
def clipped (rects : List Rect) (size : Size) : List Rect := rects.filterMap fun r =>
    match r.clipTo size with
    | .ok (some c) => some c
    | _ => none

theorem clipped_cons {result : Option Rect} (h : r.clipTo size = .ok result) (rects : List Rect) :
    clipped (r :: rects) size = result.toList ++ clipped rects size := by
  cases result <;> simp [clipped, h]

theorem cover_toList (result : Option Rect) : cover result.toList = Rect.pixelsOf result := by
  cases result <;> simp [Rect.pixelsOf]

theorem cover_clipped (hsz : size.Small) (h : ∀ r ∈ rects, r.Valid) :
    cover (clipped rects size) = cover rects ∩ size.pixels := by
  induction rects with
  | nil => simp [clipped]
  | cons r rects ih =>
    obtain ⟨result, hrs, hpx, -⟩ := Rect.clipTo_of_valid (h r mem_cons_self) hsz
    rw [clipped_cons hrs, cover_append, cover_toList, hpx,
      ih fun q hq => h q (mem_cons_of_mem r hq), cover_cons, Set.union_inter_distrib_right]

theorem within_clipped (hsz : size.Small) (h : ∀ r ∈ rects, r.Valid) :
    ∀ c ∈ clipped rects size, c.Within size := by
  intro c hc
  obtain ⟨r, hr, hcl⟩ := mem_filterMap.1 hc
  obtain ⟨result, hrs, -, hwt⟩ := Rect.clipTo_of_valid (h r hr) hsz
  rw [hrs] at hcl
  cases result with
  | none => cases hcl
  | some c' =>
    cases hcl
    exact hwt c rfl

/-! ## Sets of rectangles -/

namespace RectSet

variable {N : Nat} [NeZero N]

/-- All rectangles of the set lie in the area. -/
def Within (size : Size) (set : RectSet N) : Prop := ∀ r ∈ set.rects, r.Within size

def pixels (set : RectSet N) : Set Pixel := cover set.rects

variable {set : RectSet N}

/-- The bounds that a full set collapses to. -/
theorem foldlM_unionBounds (hsz : size.Small) (h : ∀ r ∈ rects, r.Within size) {acc : Rect}
    (hacc : acc.Within size) :
    ∃ bounds, rects.foldlM Rect.unionBounds acc = .ok bounds ∧ bounds.Within size ∧
      acc.pixels ∪ cover rects ⊆ bounds.pixels := by
  induction rects generalizing acc with
  | nil => exact ⟨acc, rfl, hacc, by simp⟩
  | cons r rects ih =>
    obtain ⟨acc', hun, hacc', hcv⟩ := Rect.unionBounds_of_within hsz hacc (h r mem_cons_self)
    obtain ⟨bounds, hfl, hbn, hcv'⟩ := ih (fun q hq => h q (mem_cons_of_mem r hq)) hacc'
    refine ⟨bounds, ?_, hbn, ?_⟩
    · rw [foldlM_cons, hun]
      exact hfl
    · rw [cover_cons, ← Set.union_assoc]
      exact (Set.union_subset_union_left _ hcv).trans hcv'

section

variable (hsize : size.Small) (hset : set.Within size)
include hsize hset

/-- A set of rectangles inside of a surface takes another one, and loses no pixel. With room to
spare, it gains no other pixels either. -/
theorem insert_of_within (hr : r.Within size) :
    ∃ set', set.insert r = .ok set' ∧ set'.Within size ∧ set.pixels ∪ r.pixels ⊆ set'.pixels ∧
      (set.rects.length < N → set'.rects = set.rects ++ [r]) := by
  unfold insert
  rw [hr.not_isEmpty, (hr.valid hsize).validate]
  by_cases hrm : set.rects.length < N
  · refine ⟨⟨set.rects ++ [r], set.collapsed, by rw [length_append]; exact hrm⟩, ?_, ?_, ?_,
      fun _ => rfl⟩
    · simp only [Bool.false_eq_true, if_false, bind_eq_ok, Except.ok.injEq, exists_eq_left', hrm,
        dif_pos, pure_eq_ok]
    · intro q hq
      rcases mem_append.1 hq with hq | hq
      · exact hset q hq
      · rwa [mem_singleton.1 hq]
    · simp [pixels]
  · have hne : set.rects ≠ [] := fun hnil =>
      hrm (by rw [hnil]; exact Nat.pos_of_ne_zero (NeZero.ne N))
    obtain ⟨bounds, hfl, hbn, hcv⟩ := foldlM_unionBounds hsize
      (fun q hq => hset q (mem_of_mem_tail hq)) (hset _ (head_mem hne))
    obtain ⟨acc, hun, hacc, hcv'⟩ := Rect.unionBounds_of_within hsize hbn hr
    refine ⟨⟨[acc], true, Nat.pos_of_ne_zero (NeZero.ne N)⟩, ?_, ?_, ?_, fun h => absurd h hrm⟩
    · simp only [Bool.false_eq_true, if_false, bind_eq_ok, Except.ok.injEq, exists_eq_left', hrm,
        dif_neg, not_false_eq_true, hfl, hun, (hacc.valid hsize).validate, pure_eq_ok]
    · intro q hq
      rwa [mem_singleton.1 hq]
    · have hpx : set.pixels = (set.rects.head hne).pixels ∪ cover set.rects.tail := by
        rw [← cover_cons, cons_head_tail]
        rfl
      rw [hpx]
      refine (Set.union_subset_union_left _ hcv).trans ?_
      simpa [pixels] using hcv'

theorem insertOrKeep_of_within (hr : r.Within size) :
    (set.insertOrKeep r).Within size ∧ set.pixels ∪ r.pixels ⊆ (set.insertOrKeep r).pixels ∧
      (set.rects.length < N → (set.insertOrKeep r).rects = set.rects ++ [r]) := by
  obtain ⟨set', hin, hrs⟩ := insert_of_within hsize hset hr
  have hkp : set.insertOrKeep r = set' := by simp only [insertOrKeep, hin]
  rwa [hkp]

theorem foldl_insertOrKeep (h : ∀ r ∈ rects, r.Within size) :
    (rects.foldl insertOrKeep set).Within size ∧
      set.pixels ∪ cover rects ⊆ (rects.foldl insertOrKeep set).pixels ∧
      (set.rects.length + rects.length ≤ N →
        (rects.foldl insertOrKeep set).rects = set.rects ++ rects) := by
  induction rects generalizing set with
  | nil => exact ⟨hset, by simp, fun _ => by simp⟩
  | cons r rects ih =>
    obtain ⟨hwt, hcv, hex⟩ := insertOrKeep_of_within hsize hset (h r mem_cons_self)
    obtain ⟨hwt', hcv', hex'⟩ := ih hwt fun q hq => h q (mem_cons_of_mem r hq)
    refine ⟨hwt', ?_, fun hrm => ?_⟩
    · rw [cover_cons, ← Set.union_assoc]
      exact (Set.union_subset_union_left _ hcv).trans hcv'
    · rw [length_cons] at hrm
      have hone := hex (by omega)
      rw [foldl_cons, hex' (by rw [hone, length_append, length_singleton]; omega),
        hone, append_assoc, singleton_append]

end

theorem insertClipped_eq (set : RectSet N) (rects : List Rect) (size : Size) :
    set.insertClipped rects size = (clipped rects size).foldl insertOrKeep set := by
  unfold insertClipped clipped
  induction rects generalizing set with
  | nil => rfl
  | cons r rects ih =>
    rw [foldl_cons, filterMap_cons, ih]
    cases hcl : r.clipTo size with
    | error e => rfl
    | ok result => cases result <;> rfl

omit [NeZero N] in
theorem within_new : (new : RectSet N).Within size := by
  rintro r ⟨⟩

omit [NeZero N] in
@[simp] theorem pixels_new : (new : RectSet N).pixels = ∅ := cover_nil

theorem insertClipped_new (hsize : size.Small) (h : ∀ r ∈ rects, r.Valid) :
    ((new : RectSet N).insertClipped rects size).Within size ∧
      cover rects ∩ size.pixels ⊆ ((new : RectSet N).insertClipped rects size).pixels ∧
      (rects.length ≤ N → ((new : RectSet N).insertClipped rects size).pixels =
        cover rects ∩ size.pixels) := by
  rw [insertClipped_eq]
  obtain ⟨hwt, hcv, hex⟩ := foldl_insertOrKeep hsize (within_new (N := N)) (within_clipped hsize h)
  rw [pixels_new, Set.empty_union, cover_clipped hsize h] at hcv
  refine ⟨hwt, hcv, fun hrm => ?_⟩
  have hlen : (clipped rects size).length ≤ rects.length := List.length_filterMap_le _ _
  unfold pixels
  rw [hex (by change 0 + _ ≤ N; omega), ← cover_clipped hsize h]
  rfl

end RectSet

end CleanSlate.Graphics
