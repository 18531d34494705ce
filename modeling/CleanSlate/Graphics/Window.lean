import CleanSlate.Graphics.Geometry
import CleanSlate.Lib.Slots

/-!
# Configures of a window

`graphics/src/window.rs`: the configures sent to a client and not yet acknowledged, oldest first.
Acknowledging one consumes it and all older ones.
-/

namespace CleanSlate.Graphics

open Lib

def maxOutstandingConfigures : Nat := 4

/-- The source of serials of a connection. -/
structure SerialMinter where
  next : UInt32
  deriving DecidableEq, Repr

namespace SerialMinter

def new : SerialMinter := ⟨1⟩

/-- Zero is skipped when the counter wraps. -/
def mint (self : SerialMinter) : Serial × SerialMinter :=
  let next := self.next + 1
  (⟨self.next⟩, ⟨if next = 0 then 1 else next⟩)

end SerialMinter

structure WindowConfig where
  size : Size
  scale : Scale120
  decoration : DecorationMode
  states : WindowStates
  bounds : Size
  deriving DecidableEq

def WindowStates.activated : UInt32 := 1

def WindowConfig.validateM10 (self : WindowConfig) : Except ProtocolError Unit :=
  let within (s : Size) : Prop :=
    s.width.toNat ≤ maxSurfaceExtent ∧ s.height.toNat ≤ maxSurfaceExtent
  if ¬within self.size ∨ ¬within self.bounds then .error .invalidLayout
  else if self.scale ≠ .one then .error .invalidScale
  else if self.decoration ≠ .server ∨ self.states.bits &&& ~~~WindowStates.activated ≠ 0 then
    .error .unsupportedFeature
  else .ok ()

structure ConfigureState where
  outstanding : Fin maxOutstandingConfigures → Option (Serial × WindowConfig)
  len : Nat
  acked : Option (Serial × WindowConfig)
  fits : len ≤ maxOutstandingConfigures

namespace ConfigureState

def new : ConfigureState := ⟨fun _ => none, 0, none, Nat.zero_le _⟩

variable (self : ConfigureState)

/-- On failure no serial is consumed. -/
def send (minter : SerialMinter) (config : WindowConfig) :
    Except ProtocolError Serial × ConfigureState × SerialMinter :=
  match config.validateM10 with
  | .error e => (.error e, self, minter)
  | .ok () =>
    if h : self.len = maxOutstandingConfigures then (.error .limitExceeded, self, minter)
    else
      have hlt : self.len < maxOutstandingConfigures := Nat.lt_of_le_of_ne self.fits h
      let (serial, minter) := minter.mint
      (.ok serial, { self with
          outstanding := Function.update self.outstanding ⟨self.len, hlt⟩ (some (serial, config))
          len := self.len + 1
          fits := hlt },
        minter)

/-- The entry holds the serial. -/
def Holds (entry : Option (Serial × WindowConfig)) (serial : Serial) : Bool :=
  match entry with
  | some (s, _) => s = serial
  | none => false

def position (self : ConfigureState) (serial : Serial) : Option (Fin maxOutstandingConfigures) :=
  Slots.position (fun i => i.val < self.len && Holds (self.outstanding i) serial) id

def checkAck (serial : Serial) : Except ProtocolError Unit :=
  (okOr (self.position serial) .serialMismatch).map fun _ => ()

def ack (serial : Serial) : Except ProtocolError WindowConfig × ConfigureState :=
  match self.position serial with
  | none => (.error .serialMismatch, self)
  | some index =>
    match self.outstanding index with
    | none => (.error .serialMismatch, self)
    | some (_, config) =>
      let consumed := index.val + 1
      -- the loop moves entries down in place and reads only entries it has not reached yet
      (.ok config,
        { outstanding := fun i =>
            if h : i.val + consumed < self.len then
              self.outstanding ⟨i.val + consumed, Nat.lt_of_lt_of_le h self.fits⟩
            else none
          len := self.len - consumed
          acked := some (serial, config)
          fits := Nat.le_trans (Nat.sub_le _ _) self.fits })

def isConfigured : Bool := self.acked.isSome

end ConfigureState

end CleanSlate.Graphics
