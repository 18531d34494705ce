import Mathlib.Init

/-!
# Addresses, errors and sessions

Values of `network/src/{addr,error,device,session,protocol}.rs` that the transports use. Ticks of the
service clock are natural numbers.
-/

namespace CleanSlate.Network

structure Ipv4Addr where
  octets : Vector UInt8 4
  deriving DecidableEq, Repr

def Ipv4Addr.new (a b c d : UInt8) : Ipv4Addr := ⟨#v[a, b, c, d]⟩

structure SocketAddrV4 where
  addr : Ipv4Addr
  port : UInt16
  deriving DecidableEq, Repr

inductive DenialReason where
  | noCapability
  | missingRight
  | staleGeneration
  | revoked
  deriving DecidableEq, Repr

inductive NetworkDeviceError where
  | notReady
  | queueFull
  | queueEmpty
  | malformed
  | oversized
  | timeout
  | poisoned
  | resetRequired
  | deviceError
  deriving DecidableEq, Repr

inductive NetworkError where
  | invalidRequest
  | denied (reason : DenialReason)
  | unreachable
  | timeout
  | reset
  | protocol
  | transport (error : NetworkDeviceError)
  | queueFull
  | sessionExhausted
  | notFound
  | closed
  deriving DecidableEq, Repr

/-- Identity of a caller, attached by the trusted service. -/
structure TrustedCaller where
  pid : UInt64
  domain : UInt64
  instanceGeneration : UInt64
  deriving DecidableEq, Repr

structure SessionGeneration where
  raw : UInt64
  deriving DecidableEq, Repr

structure SessionId where
  raw : UInt64
  deriving DecidableEq, Repr

namespace SessionId

def new (generation : SessionGeneration) (index : UInt32) : SessionId :=
  ⟨((generation.raw &&& 0xFFFFFFFF) <<< 32) ||| index.toUInt64⟩

def generation (self : SessionId) : SessionGeneration := ⟨self.raw >>> 32⟩

def index (self : SessionId) : UInt32 := self.raw.toUInt32

def matchesGeneration (self : SessionId) (expected : SessionGeneration) : Bool :=
  self.generation.raw == expected.raw

end SessionId

end CleanSlate.Network
