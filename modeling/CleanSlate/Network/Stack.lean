import CleanSlate.Lib.Run
import CleanSlate.Lib.Slots
import CleanSlate.Network.Types

/-!
# Neighbours of the L3 stack

`ArpCache` of `network/src/arp.rs` and what `L3Stack` of `network/src/stack.rs` does with it. Received
frames are given parsed, and the answers of the link to transmissions are inputs.
-/

namespace CleanSlate.Network

open Lib

structure MacAddr where
  octets : Vector UInt8 6

inductive ArpOp where
  | request
  | reply
  deriving DecidableEq

structure ArpPacket where
  op : ArpOp
  senderMac : MacAddr
  senderIp : Ipv4Addr
  targetMac : MacAddr
  targetIp : Ipv4Addr

def ArpPacket.request (senderMac : MacAddr) (senderIp targetIp : Ipv4Addr) : ArpPacket :=
  ⟨.request, senderMac, senderIp, ⟨.replicate 6 0⟩, targetIp⟩

def ArpPacket.replyTo (request : ArpPacket) (ourMac : MacAddr) (ourIp : Ipv4Addr) : ArpPacket :=
  ⟨.reply, ourMac, ourIp, request.senderMac, request.senderIp⟩

structure ArpEntry where
  ip : Ipv4Addr
  mac : MacAddr
  insertedAt : Nat
  expiresAt : Nat
  valid : Bool

def ArpEntry.empty : ArpEntry := ⟨.new 0 0 0 0, ⟨.replicate 6 0⟩, 0, 0, false⟩

/-- Room for 16 neighbours and 4 unanswered requests. -/
structure ArpCache where
  ttlTicks : Nat
  entries : Fin 16 → ArpEntry
  pending : Fin 4 → Option Ipv4Addr

namespace ArpCache

def new (ttlTicks : Nat) : ArpCache := ⟨ttlTicks, fun _ => .empty, fun _ => none⟩

variable (self : ArpCache) (ip : Ipv4Addr)

def evictOldestOrFree : Fin 16 := (Slots.position (fun e => !e.valid) self.entries).getD
    ((List.finRange 16).foldl (fun oldest i =>
      if (self.entries i).insertedAt < oldest.2 then (i, (self.entries i).insertedAt) else oldest)
      (0, 2 ^ 64 - 1)).1

def clearPending : ArpCache :=
  { self with pending := fun i => if self.pending i = some ip then none else self.pending i }

def insert (mac : MacAddr) (now : Nat) : ArpCache :=
  let index := (Slots.position (fun e => e.valid && e.ip = ip) self.entries).getD
    self.evictOldestOrFree
  let entry := ⟨ip, mac, now, min (now + self.ttlTicks) (2 ^ 64 - 1), true⟩
  clearPending { self with entries := Function.update self.entries index entry } ip

def lookup (now : Nat) : Option MacAddr :=
  (Slots.position (fun e => e.valid && e.ip = ip && now < e.expiresAt) self.entries).map fun i =>
    (self.entries i).mac

def expire (now : Nat) : ArpCache :=
  { self with entries := fun i => if (self.entries i).valid && (self.entries i).expiresAt ≤ now
    then { self.entries i with valid := false } else self.entries i }

def trackPending : Bool × ArpCache :=
  if ∃ i, self.pending i = some ip then (true, self) else
    match Slots.position Option.isNone self.pending with
    | some i => (true, { self with pending := Function.update self.pending i (some ip) })
    | none => (false, self)

end ArpCache

/-- A /24 network. -/
def sameSubnet (a b : Ipv4Addr) : Bool := a.octets.take 3 == b.octets.take 3

structure L3Stack where
  ourMac : MacAddr
  ourIp : Ipv4Addr
  arp : ArpCache

/-- What a call returns, and the packets it hands to the link. -/
structure L3Output where
  result : Except NetworkError Unit
  packets : List ArpPacket

inductive L3Frame where
  | dropped
  | arp (packet : ArpPacket)
  | ipv4 (source : MacAddr) (src dst : Ipv4Addr) (handled : Except NetworkError Unit)

namespace L3Stack

def new (ourMac : MacAddr) (ourIp : Ipv4Addr) (arpTtlTicks : Nat) : L3Stack :=
  ⟨ourMac, ourIp, .new arpTtlTicks⟩

variable (self : L3Stack) (now : Nat) (transmit : Except NetworkError Unit)

def sendIpv4 (dstIp : Ipv4Addr) : L3Output × L3Stack :=
  if !sameSubnet self.ourIp dstIp then (⟨.error .unreachable, []⟩, self)
  else if (self.arp.lookup dstIp now).isSome then (⟨transmit, []⟩, self)
  else
    match self.arp.trackPending dstIp with
    | (true, arp) => (⟨.error .unreachable, [.request self.ourMac self.ourIp dstIp]⟩,
      { self with arp })
    | (false, arp) => (⟨.error .unreachable, []⟩, { self with arp })

def dispatchFrame : L3Frame → L3Output × L3Stack
  | .dropped => (⟨.ok (), []⟩, self)
  | .arp packet =>
    match packet.op with
    | .request =>
      if packet.targetIp = self.ourIp then
        (⟨transmit, [packet.replyTo self.ourMac self.ourIp]⟩, self)
      else (⟨.ok (), []⟩, self)
    | .reply => (⟨.ok (), []⟩,
      { self with arp := self.arp.insert packet.senderIp packet.senderMac now })
  | .ipv4 source src dst handled =>
    if dst = self.ourIp then (⟨handled, []⟩, { self with arp := self.arp.insert src source now })
    else (⟨.ok (), []⟩, self)

def poll (received : Except NetworkError L3Frame) : L3Output × L3Stack :=
  let self := { self with arp := self.arp.expire now }
  match received with
  | .error error => (⟨.error error, []⟩, self)
  | .ok frame => self.dispatchFrame now transmit frame

end L3Stack

inductive L3Op where
  | sendIpv4 (now : Nat) (transmit : Except NetworkError Unit) (dstIp : Ipv4Addr)
  | poll (now : Nat) (transmit : Except NetworkError Unit) (received : Except NetworkError L3Frame)
  | insert (ip : Ipv4Addr) (mac : MacAddr) (now : Nat)
  | reset (link : Except NetworkError Unit)

def l3Step (stack : L3Stack) : L3Op → L3Output × L3Stack
  | .sendIpv4 now transmit dstIp => stack.sendIpv4 now transmit dstIp
  | .poll now transmit received => stack.poll now transmit received
  | .insert ip mac now => (⟨.ok (), []⟩, { stack with arp := stack.arp.insert ip mac now })
  | .reset link => (⟨link, []⟩, { stack with arp := .new stack.arp.ttlTicks })

end CleanSlate.Network
