import CleanSlate.ServicePort.Abi

/-!
# Effects owed by one operation

`port/src/effects.rs`: the wakes and signals an operation owes its caller, deduplicated and of
fixed capacity, and the resources of the transfer children it revoked.
-/

namespace CleanSlate.ServicePort

open Capability

variable {B : Type}

/-- A wake or signal owed after an operation. `B` is the caller's work-set binding type. -/
inductive Effect (B : Type) where
  /-- Waiters in server `RECV` on this port. -/
  | wakeServer (port : PortKey)
  /-- Senders blocked for capacity on this port. -/
  | wakeSendSpace (port : PortKey)
  /-- Client waiters on this connection (`RECV_EVENT`). -/
  | wakeConnection (connection : ConnectionId)
  /-- Set this bit on the server's bound work set. -/
  | signal (target : B) (bit : UInt32)
  deriving DecidableEq

instance [DecidableEq B] : LawfulBEq (Effect B) := inferInstance

def effectsCapacity : Nat := 32

def revokedTransfersCapacity : Nat := 16

structure Effects (B : Type) where
  items : List (Effect B)
  revoked : List ResourceRef
  overflowed : Bool

namespace Effects

def new : Effects B := ⟨[], [], false⟩

def push [DecidableEq B] (self : Effects B) (effect : Effect B) : Effects B :=
  if effect ∈ self.items then self
  else if self.items.length < effectsCapacity then { self with
    items := self.items ++ [effect] }
  else { self with
    overflowed := true }

def noteRevoked (self : Effects B) (resource : ResourceRef) : Effects B :=
  if resource ∈ self.revoked then self
  else if self.revoked.length < revokedTransfersCapacity then { self with
    revoked := self.revoked ++ [resource] }
  else { self with
    overflowed := true }

end Effects

end CleanSlate.ServicePort
