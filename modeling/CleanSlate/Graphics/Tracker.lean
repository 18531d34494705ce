import CleanSlate.Graphics.Types
import CleanSlate.Lib.Slots

/-!
# Busy buffers

The tracker of `graphics/src/surface.rs` that all surfaces of a connection share. A surface with a
busy buffer has an entry: `current` is the buffer on the screen, `latest` the one committed and not
composited yet.
-/

namespace CleanSlate.Graphics

open Lib Function

inductive PendingBuffer where
  | unchanged
  | attach (buffer : ClientBufferId)
  | detach
  deriving DecidableEq

inductive Latest where
  | empty
  | buffer (buffer : ClientBufferId)
  | detach
  deriving DecidableEq

/-- The buffer that is replaced when `latest` is set. -/
def Latest.released : Latest → Option ClientBufferId
  | buffer old => some old
  | _ => none

structure Tracked where
  surface : SurfaceId
  current : Option ClientBufferId
  latest : Latest
  deriving DecidableEq

def Tracked.holds (self : Tracked) (b : ClientBufferId) : Bool :=
  self.current = some b ∨ self.latest = .buffer b

structure BufferTracker (N : Nat) where
  entries : Fin N → Option Tracked

namespace BufferTracker

variable {N : Nat}

def new : BufferTracker N := ⟨fun _ => none⟩

variable (self : BufferTracker N) (surface : SurfaceId)

def find : Option (Fin N) :=
  Slots.position (fun e => e.any fun t => t.surface = surface) self.entries

def isBusy (buffer : ClientBufferId) : Bool :=
  (List.finRange N).any fun i => (self.entries i).any fun t => t.holds buffer

def checkCommit (pending : PendingBuffer) : Except ProtocolError Unit :=
  match pending with
  | .attach b =>
    if self.isBusy b then .error .bufferBusy
    else if (self.find surface).isNone ∧ ∀ i, (self.entries i).isSome then .error .limitExceeded
    else .ok ()
  | _ => .ok ()

/-- The tail of `commit` for an attached buffer, once the surface has its entry. -/
def setLatest (index : Fin N) (b : ClientBufferId) :
    Except ProtocolError (Option ClientBufferId) × BufferTracker N :=
  match self.entries index with
  | none => (.ok none, self)
  | some t =>
    (.ok t.latest.released, ⟨update self.entries index (some { t with latest := .buffer b })⟩)

def commit (pending : PendingBuffer) :
    Except ProtocolError (Option ClientBufferId) × BufferTracker N :=
  match self.checkCommit surface pending with
  | .error e => (.error e, self)
  | .ok () =>
    match pending with
    | .unchanged => (.ok none, self)
    | .attach b =>
      match self.find surface with
      | some index => self.setLatest index b
      | none =>
        match Slots.position Option.isNone self.entries with
        | none => (.error .limitExceeded, self)
        | some index =>
          let fresh : Tracked := { surface, current := none, latest := .empty }
          setLatest ⟨update self.entries index (some fresh)⟩ index b
    | .detach =>
      match self.find surface with
      | none => (.ok none, self)
      | some index =>
        match self.entries index with
        | none => (.ok none, self)
        | some t =>
          if t.current.isSome then
            (.ok t.latest.released, ⟨update self.entries index (some { t with latest := .detach })⟩)
          else (.ok t.latest.released, ⟨update self.entries index none⟩)

def composited : Option ClientBufferId × BufferTracker N :=
  match self.find surface with
  | none => (none, self)
  | some index =>
    match self.entries index with
    | none => (none, self)
    | some t =>
      match t.latest with
      | .empty => (none, self)
      | .buffer b =>
        (t.current,
          ⟨update self.entries index (some { t with current := some b, latest := .empty })⟩)
      | .detach => (t.current, ⟨update self.entries index none⟩)

/-- The busy buffers of the surface, `[current, latest]`. -/
def removeSurface : (Option ClientBufferId × Option ClientBufferId) × BufferTracker N :=
  match self.find surface with
  | none => ((none, none), self)
  | some index =>
    match self.entries index with
    | none => ((none, none), self)
    | some t => ((t.current, t.latest.released), ⟨update self.entries index none⟩)

end BufferTracker

end CleanSlate.Graphics
