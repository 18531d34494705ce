import CleanSlate.Graphics.Types

/-!
# Rectangles and bounded sets of them

`graphics/src/geometry.rs`. A `RectSet` holds at most `N` rectangles; one more and it collapses to a
single rectangle around all of them.
-/

namespace CleanSlate.Graphics

open Lib

/-- `i32::MIN`. -/
def i32Min : Int := -2 ^ 31

/-- `i32::checked_sub`. -/
def checkedSub (a b : Int32) : Option Int32 :=
  if i32Min ≤ a.toInt - b.toInt ∧ a.toInt - b.toInt ≤ i32Max then
    some (Int32.ofInt (a.toInt - b.toInt))
  else none

/-- `u32::try_from` of an `i32`. -/
def u32OfI32 (a : Int32) : Except GeometryError UInt32 :=
  if a.toInt < 0 then .error .overflow else .ok (UInt32.ofNat a.toInt.toNat)

/-- `u16::try_from` of a `u32`. -/
def u16OfU32 (a : UInt32) : Option UInt16 :=
  if a.toNat < 2 ^ 16 then some (UInt16.ofNat a.toNat) else none

def Scale120.one : Scale120 := ⟨120⟩

/-! ## Rectangles -/

namespace BufferRect

def toRect (self : BufferRect) : Rect where
  x := Int32.ofInt self.x.toNat
  y := Int32.ofInt self.y.toNat
  width := self.width.toUInt32
  height := self.height.toUInt32

/-- The sums of two `u16` do not overflow a `u32`, and `min` is not below the start here. -/
def clipToExtent (self : BufferRect) (width height : UInt32) : Option BufferRect :=
  if self.width = 0 ∨ self.height = 0 then none
  else
    let x0 := self.x.toUInt32
    let y0 := self.y.toUInt32
    let x1 := x0 + self.width.toUInt32
    let y1 := y0 + self.height.toUInt32
    if x0 ≥ width ∨ y0 ≥ height then none
    else
      let w := min x1 width - x0
      let h := min y1 height - y0
      if w = 0 ∨ h = 0 then none
      else do
        let x ← u16OfU32 x0
        let y ← u16OfU32 y0
        let width ← u16OfU32 w
        let height ← u16OfU32 h
        return { x, y, width, height }

end BufferRect

namespace Rect

def isEmpty (self : Rect) : Bool := self.width = 0 ∨ self.height = 0

/-- The rectangle between two corners, when there is something between them. -/
def between (left top right bottom : Int32) : Except GeometryError (Option Rect) :=
  match checkedSub right left with
  | none => .ok none
  | some width =>
    if ¬width.toInt > 0 then .ok none
    else
      match checkedSub bottom top with
      | none => .ok none
      | some height =>
        if ¬height.toInt > 0 then .ok none
        else do
          let width ← u32OfI32 width
          let height ← u32OfI32 height
          return some { x := left, y := top, width, height }

def intersect (self other : Rect) : Except GeometryError (Option Rect) := do
  let _ ← self.validate
  let _ ← other.validate
  let left := max self.x other.x
  let top := max self.y other.y
  let right := min (← self.checkedRight) (← other.checkedRight)
  let bottom := min (← self.checkedBottom) (← other.checkedBottom)
  between left top right bottom

def unionBounds (self other : Rect) : Except GeometryError Rect :=
  if self.isEmpty then .ok other
  else if other.isEmpty then .ok self
  else do
    let left := min self.x other.x
    let top := min self.y other.y
    let right := max (← self.checkedRight) (← other.checkedRight)
    let bottom := max (← self.checkedBottom) (← other.checkedBottom)
    let width ← okOr (checkedSub right left) .overflow
    let height ← okOr (checkedSub bottom top) .overflow
    if width.toInt = 0 ∨ height.toInt = 0 then .error .emptyExtent
    else do
      let width ← u32OfI32 width
      let height ← u32OfI32 height
      return { x := left, y := top, width, height }

def ofSize (size : Size) : Rect := { x := 0, y := 0, width := size.width, height := size.height }

def clipTo (self : Rect) (bounds : Size) : Except GeometryError (Option Rect) :=
  if (bounds.width.toNat : Int) > i32Max ∨ (bounds.height.toNat : Int) > i32Max then
    .error .overflow
  else do
    let _ ← self.validate
    if self.isEmpty then return none
    else
      let clip := ofSize bounds
      let _ ← clip.validate
      self.intersect clip

end Rect

/-! ## Sets of rectangles -/

/-- The first `len` rectangles of the array. -/
structure RectSet (N : Nat) where
  rects : List Rect
  collapsed : Bool
  fits : rects.length ≤ N
  deriving DecidableEq

namespace RectSet

variable {N : Nat}

def new : RectSet N := ⟨[], false, Nat.zero_le N⟩

def len (self : RectSet N) : Nat := self.rects.length

def isEmpty (self : RectSet N) : Bool := self.len = 0

variable [NeZero N] (self : RectSet N)

/-- A failed insertion leaves the set as it was. -/
def insert (rect : Rect) : Except GeometryError (RectSet N) :=
  if rect.isEmpty then .ok self
  else do
    let _ ← rect.validate
    if h : self.rects.length < N then
      return ⟨self.rects ++ [rect], self.collapsed, by rw [List.length_append]; exact h⟩
    else
      have hne : self.rects ≠ [] := fun hnil => h (by rw [hnil]; exact Nat.pos_of_ne_zero (NeZero.ne N))
      let acc ← self.rects.tail.foldlM Rect.unionBounds (self.rects.head hne)
      let acc ← acc.unionBounds rect
      let acc ← acc.validate
      return ⟨[acc], true, Nat.pos_of_ne_zero (NeZero.ne N)⟩

/-- `let _ = set.insert(rect)`. -/
def insertOrKeep (rect : Rect) : RectSet N :=
  match self.insert rect with
  | .ok set => set
  | .error _ => self

/-- A loop that clips rectangles and inserts what is left of them. -/
def insertClipped (rects : List Rect) (size : Size) : RectSet N :=
  rects.foldl (fun out r =>
      match r.clipTo size with
      | .ok (some c) => out.insertOrKeep c
      | _ => out)
    self

end RectSet

end CleanSlate.Graphics
