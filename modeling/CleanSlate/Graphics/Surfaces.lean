import CleanSlate.Graphics.Surface
import CleanSlate.Lib.Run

/-!
# The surfaces of a connection

Requests and compositor actions on any number of surfaces that share one tracker of busy buffers.
The window of a commit and the layouts of its buffers come from tables outside of this model, and are
arbitrary.
-/

namespace CleanSlate.Graphics

open Lib

structure Surfaces (N : Nat) where
  state : SurfaceId → SurfaceState
  tracker : BufferTracker N

inductive SurfaceOp where
  | attach (buffer : Option ClientBufferId) (scale : Scale120)
  | damage (rects : List BufferRect)
  | setOpaqueRegion (rects : List Rect) (replace : Bool)
  | setInputRegion (rects : List Rect) (replace : Bool)
  | commit (request : CommitRequest) (window : Option ConfigureState)
      (resolve : ClientBufferId → Except ProtocolError BufferLayout)
  | latch
  | frameSubmitted (presentSeq : UInt64)
  | presentCompleted (completedSeq completedNs : UInt64)
  | remove

inductive SurfaceReply where
  | done (result : Except ProtocolError Unit)
  | committed (result : Except ProtocolError CommitOutcome)
  | latched (latch : Latch)
  | submitted (armed : Bool)
  | presented (frame : Option FrameDone)
  | removed (current latest : Option ClientBufferId)

namespace Surfaces

variable {N : Nat}

def new : Surfaces N := ⟨fun _ => .new, .new⟩

def set (self : Surfaces N) (surface : SurfaceId) (s : SurfaceState) : Surfaces N :=
  { self with state := Function.update self.state surface s }

/-- One operation on one surface. A removed surface starts anew when its identity is used again. -/
def step (self : Surfaces N) (op : SurfaceId × SurfaceOp) : SurfaceReply × Surfaces N :=
  let surface := op.1
  let s := self.state surface
  match op.2 with
  | .attach buffer scale =>
    let (result, s') := s.attach buffer scale self.tracker
    (.done result, self.set surface s')
  | .damage rects =>
    let (result, s') := s.damage rects
    (.done result, self.set surface s')
  | .setOpaqueRegion rects replace =>
    let (result, s') := s.setOpaqueRegion rects replace
    (.done result, self.set surface s')
  | .setInputRegion rects replace =>
    let (result, s') := s.setInputRegion rects replace
    (.done result, self.set surface s')
  | .commit request window resolve =>
    let (result, s', tracker', _) := s.commit surface request self.tracker window resolve
    (.committed result, { self.set surface s' with tracker := tracker' })
  | .latch =>
    let (latch, s', tracker') := s.latch surface self.tracker
    (.latched latch, { self.set surface s' with tracker := tracker' })
  | .frameSubmitted presentSeq =>
    let (armed, s') := s.frameSubmitted presentSeq
    (.submitted armed, self.set surface s')
  | .presentCompleted completedSeq completedNs =>
    let (frame, s') := s.presentCompleted completedSeq completedNs
    (.presented frame, self.set surface s')
  | .remove =>
    let ((current, latest), tracker') := self.tracker.removeSurface surface
    (.removed current latest, { self.set surface .new with tracker := tracker' })

end Surfaces

/-- The buffers that a reply reports as released. -/
def SurfaceReply.released : SurfaceReply → List ClientBufferId
  | committed (.ok outcome) => outcome.released.toList
  | latched latch => latch.released.toList
  | removed current latest => current.toList ++ latest.toList
  | _ => []

end CleanSlate.Graphics
