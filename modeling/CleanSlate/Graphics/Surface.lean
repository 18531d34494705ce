import CleanSlate.Graphics.Request
import CleanSlate.Graphics.Tracker
import CleanSlate.Graphics.Window

/-!
# Surfaces

The double-buffered state of a surface, `graphics/src/surface.rs`. Requests change the pending state;
`commit` makes it the committed one, together with the busy buffers and the configures of the window;
`latch` hands what was committed to the compositor. The role of a surface is assigned once and read
by no other operation, and is left out.
-/

namespace CleanSlate.Graphics

open Lib

def maxDamageRectsPerCommit : Nat := 16
def maxRegionRects : Nat := 8

instance : NeZero maxDamageRectsPerCommit := ⟨by decide⟩
instance : NeZero maxRegionRects := ⟨by decide⟩

abbrev DamageSet := RectSet maxDamageRectsPerCommit
abbrev RegionSet := RectSet maxRegionRects

def extentSize : Size := ⟨4096, 4096⟩

/-- `[0, MAX_SURFACE_EXTENT)²`. -/
def extentRect : Rect := .ofSize extentSize

/-! ## State -/

inductive OpaqueRegion where
  | rects (set : RegionSet)
  | degraded
  deriving DecidableEq

inductive InputRegion where
  | wholeSurface
  | rects (set : RegionSet)
  deriving DecidableEq

structure PendingState where
  buffer : PendingBuffer
  scale : Scale120
  damage : DamageSet
  opaqueRegion : OpaqueRegion
  input : InputRegion
  deriving DecidableEq

def PendingState.new : PendingState where
  buffer := .unchanged
  scale := .one
  damage := .new
  opaqueRegion := .rects .new
  input := .wholeSurface

structure CommittedBuffer where
  id : ClientBufferId
  layout : BufferLayout
  deriving DecidableEq

def CommittedBuffer.size (self : CommittedBuffer) : Size := ⟨self.layout.width, self.layout.height⟩

structure CommittedState where
  buffer : Option CommittedBuffer
  scale : Scale120
  colorSpace : ColorSpace
  opaqueRegion : RegionSet
  input : InputRegion
  commitCount : UInt64
  deriving DecidableEq

namespace CommittedState

def new : CommittedState where
  buffer := none
  scale := .one
  colorSpace := .srgb
  opaqueRegion := .new
  input := .wholeSurface
  commitCount := 0

def size (self : CommittedState) : Size :=
  match self.buffer with
  | some b => b.size
  | none => ⟨0, 0⟩

end CommittedState

inductive FrameState where
  | idle
  | armed
  | awaitingPresent (presentSeq : UInt64)
  deriving DecidableEq

structure FrameDone where
  presentedNs : UInt64
  outputSeq : UInt64
  deriving DecidableEq

structure CommitRequest where
  requestFrame : Bool
  colorSpace : ColorSpace
  ack : Option Serial
  deriving DecidableEq

structure CommitOutcome where
  released : Option ClientBufferId
  acked : Option Serial
  frameArmed : Bool
  scheduleComposite : Bool
  deriving DecidableEq

structure Latch where
  released : Option ClientBufferId
  damage : DamageSet
  geometryChanged : Bool
  deriving DecidableEq

structure SurfaceState where
  pending : PendingState
  committed : CommittedState
  frame : FrameState
  unlatchedDamage : DamageSet
  unlatchedGeometry : Bool
  deriving DecidableEq

/-! ## Requests -/

/-- The body of the loop of `clip_region_rects`. -/
def clipRegionRect (out : List Rect) (r : Rect) : Except ProtocolError (List Rect) :=
  match r.clipTo extentSize with
  | .error _ => .error .invalidRegion
  | .ok none => .ok out
  | .ok (some c) => .ok (out ++ [c])

/-- The rectangles clipped to the extent, without those of which nothing is left. -/
def clipRegionRects (rects : List Rect) : Except ProtocolError (List Rect) :=
  if rects.length > regionRectsPerFrame then .error .invalidRegion
  else rects.foldlM clipRegionRect []

def clipSetTo (set : RegionSet) (size : Size) : RegionSet :=
  RectSet.insertClipped .new set.rects size

namespace SurfaceState

def new : SurfaceState where
  pending := .new
  committed := .new
  frame := .idle
  unlatchedDamage := .new
  unlatchedGeometry := false

def attach {N : Nat} (self : SurfaceState) (buffer : Option ClientBufferId) (scale : Scale120)
    (tracker : BufferTracker N) : Except ProtocolError Unit × SurfaceState :=
  if scale ≠ .one then (.error .invalidScale, self)
  else if buffer.any tracker.isBusy then (.error .bufferBusy, self)
  else
    let pendingBuffer := match buffer with
      | some b => .attach b
      | none => .detach
    (.ok (), { self with pending := { self.pending with buffer := pendingBuffer, scale } })

/-- The body of the loop of `damage`. -/
def addDamage (damage : DamageSet) (r : BufferRect) : Except ProtocolError DamageSet :=
  match r.clipToExtent extentSize.width extentSize.height with
  | some c => (damage.insert c.toRect).mapError fun _ => .invalidDamage
  | none => .ok damage

/-- The loop works on a copy of the pending damage. -/
def damage (self : SurfaceState) (rects : List BufferRect) :
    Except ProtocolError Unit × SurfaceState :=
  if rects.length > damageRectsPerFrame then (.error .invalidDamage, self)
  else
    match rects.foldlM addDamage self.pending.damage with
    | .error e => (.error e, self)
    | .ok damage => (.ok (), { self with pending := { self.pending with damage } })

/-- The loop of `set_opaque_region`: the region degrades when the set is full. -/
def appendOpaque (set : RegionSet) : List Rect → OpaqueRegion
  | [] => .rects set
  | r :: rest =>
    if set.len = maxRegionRects then .degraded else appendOpaque (set.insertOrKeep r) rest

variable (self : SurfaceState)

def setOpaqueRegion (rects : List Rect) (replace : Bool) :
    Except ProtocolError Unit × SurfaceState :=
  match clipRegionRects rects with
  | .error e => (.error e, self)
  | .ok clipped =>
    let base := if replace then .rects .new else self.pending.opaqueRegion
    let region := match base with
      | .degraded => .degraded
      | .rects set => appendOpaque set clipped
    (.ok (), { self with pending := { self.pending with opaqueRegion := region } })

def setInputRegion (rects : List Rect) (replace : Bool) :
    Except ProtocolError Unit × SurfaceState :=
  match clipRegionRects rects with
  | .error e => (.error e, self)
  | .ok clipped =>
    if extentRect ∈ clipped then
      (.ok (), { self with pending := { self.pending with input := .wholeSurface } })
    else
      let base := if replace then .rects .new else self.pending.input
      match base with
      | .wholeSurface =>
        (.ok (), { self with pending := { self.pending with input := .wholeSurface } })
      | .rects set =>
        if set.len + clipped.length > maxRegionRects then (.error .invalidRegion, self)
        else
          let input := .rects (clipped.foldl RectSet.insertOrKeep set)
          (.ok (), { self with pending := { self.pending with input } })

/-! ## Commit -/

variable {N : Nat} (surface : SurfaceId) (request : CommitRequest) (tracker : BufferTracker N)
  (window : Option ConfigureState) (resolve : ClientBufferId → Except ProtocolError BufferLayout)

/-- The checks on the acknowledgement. -/
def checkWindow (ack : Option Serial) : Except ProtocolError Unit :=
  match window, ack with
  | none, some _ => .error .serialMismatch
  | some w, some s => w.checkAck s
  | some w, none => if w.isConfigured then .ok () else .error .notConfigured
  | none, none => .ok ()

/-- The buffer that a commit makes the committed one. -/
def newBuffer : Except ProtocolError (Option CommittedBuffer) :=
  match self.pending.buffer with
  | .unchanged => .ok self.committed.buffer
  | .detach => .ok none
  | .attach id => (resolve id).map fun layout => some { id, layout }

/-- What `commit` checks before it changes anything; the result is the new buffer. -/
def commitChecks : Except ProtocolError (Option CommittedBuffer) := do
  checkWindow window request.ack
  let buffer ← self.newBuffer resolve
  tracker.checkCommit surface self.pending.buffer
  return buffer

/-- `w.ack(s).ok().map(|_| s)`, when there is a window and a serial. -/
def applyAck (ack : Option Serial) : Option Serial × Option ConfigureState :=
  match window, ack with
  | some w, some s =>
    match w.ack s with
    | (.ok _, w') => (some s, some w')
    | (.error _, w') => (none, some w')
  | _, _ => (none, window)

/-- The damage of one commit. -/
def commitDamage (pendingDamage : DamageSet) (oldSize newSize : Option Size) : DamageSet :=
  match newSize with
  | none => .new
  | some size =>
    if oldSize ≠ newSize then RectSet.new.insertOrKeep (.ofSize size)
    else RectSet.insertClipped .new pendingDamage.rects size

def bufferIdentityChanged (pending : PendingBuffer) (committed : Option CommittedBuffer) : Bool :=
  match pending with
  | .unchanged => false
  | .detach => committed.isSome
  | .attach id => committed.map CommittedBuffer.id ≠ some id

/-- What `commit` does once all checks have passed. -/
def commitApply (newBuffer : Option CommittedBuffer) :
    CommitOutcome × SurfaceState × BufferTracker N × Option ConfigureState :=
  let (acked, window') := applyAck window request.ack
  let (result, tracker') := tracker.commit surface self.pending.buffer
  -- `unwrap_or(None)`
  let released := result.toOption.join
  let oldSize := self.committed.buffer.map CommittedBuffer.size
  let newSize := newBuffer.map CommittedBuffer.size
  let geometryChanged : Bool := oldSize ≠ newSize
  let size := newSize.getD ⟨0, 0⟩
  let damage := commitDamage self.pending.damage oldSize newSize
  let frameArmed := request.requestFrame && self.frame = .idle
  let committed : CommittedState :=
    { buffer := newBuffer
      scale := self.pending.scale
      colorSpace := request.colorSpace
      opaqueRegion := match self.pending.opaqueRegion with
        | .rects set => clipSetTo set size
        | .degraded => .new
      input := match self.pending.input with
        | .rects set => .rects (clipSetTo set size)
        | .wholeSurface => .wholeSurface
      commitCount := self.committed.commitCount + 1 }
  let state : SurfaceState :=
    { pending := { self.pending with buffer := .unchanged, damage := .new }
      committed
      frame := if frameArmed then .armed else self.frame
      unlatchedDamage := damage.rects.foldl RectSet.insertOrKeep self.unlatchedDamage
      unlatchedGeometry := self.unlatchedGeometry || geometryChanged }
  let outcome : CommitOutcome :=
    { released
      acked
      frameArmed
      scheduleComposite :=
        geometryChanged || !damage.isEmpty || request.requestFrame ||
          bufferIdentityChanged self.pending.buffer self.committed.buffer }
  (outcome, state, tracker', window')

def commit :
    Except ProtocolError CommitOutcome × SurfaceState × BufferTracker N × Option ConfigureState :=
  match self.commitChecks surface request tracker window resolve with
  | .error e => (.error e, self, tracker, window)
  | .ok newBuffer =>
    let (outcome, rest) := self.commitApply surface request tracker window newBuffer
    (.ok outcome, rest)

/-! ## Composition -/

def latch : Latch × SurfaceState × BufferTracker N :=
  let size := self.committed.size
  let damage := if size.width > 0 ∧ size.height > 0 then
      RectSet.insertClipped .new self.unlatchedDamage.rects size
    else .new
  let (released, tracker') := tracker.composited surface
  ({ released, damage, geometryChanged := self.unlatchedGeometry },
    { self with unlatchedDamage := .new, unlatchedGeometry := false }, tracker')

def frameSubmitted (presentSeq : UInt64) : Bool × SurfaceState :=
  if self.frame = .armed then (true, { self with frame := .awaitingPresent presentSeq })
  else (false, self)

def presentCompleted (completedSeq completedNs : UInt64) : Option FrameDone × SurfaceState :=
  match self.frame with
  | .awaitingPresent presentSeq =>
    if completedSeq ≥ presentSeq then
      (some ⟨completedNs, completedSeq⟩, { self with frame := .idle })
    else (none, self)
  | _ => (none, self)

end SurfaceState

end CleanSlate.Graphics
