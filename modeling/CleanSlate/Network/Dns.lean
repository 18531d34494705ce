import CleanSlate.Lib.Checks
import CleanSlate.Lib.Loop
import CleanSlate.Network.Types

/-!
# Parsing DNS responses

`parse_response` of `network/src/dns.rs` and what it calls. A message and a name are lists of bytes.
Offsets are natural numbers: `usize` does not overflow on the length of a message and a 16-bit record
length, so the `checked_add` of `skip_rr` always succeeds. The cache and the resolver are left out.
-/

namespace CleanSlate.Network.Dns

open Lib

def maxDnsAnswers : Nat := 8
def maxDnsNameLen : Nat := 253
def dnsCompressionHopLimit : Nat := 16
def dnsHeaderLen : Nat := 12
def rrTypeA : UInt16 := 1
def rrClassIn : UInt16 := 1
def flagQr : UInt16 := 0x8000
def flagOpcodeMask : UInt16 := 0x7800
def flagTc : UInt16 := 0x0200
def flagRcodeMask : UInt16 := 0x000F
def rcodeNxdomain : UInt8 := 3

inductive DnsError where
  | invalidName
  | truncated
  | malformed
  | idMismatch
  | notAResponse
  | compressionLoop
  | pointerForward
  | tooManyRecords
  | unsupportedType
  | nameNotFound
  | serverFailure (rcode : UInt8)
  | noAddress
  | timeout
  | queueFull
  | transport (error : NetworkError)
  deriving DecidableEq, Repr

/-! ## Bytes -/

variable (bytes : List UInt8) (msg : List UInt8)

/-- `msg[i]`, after its bound was checked. -/
def byteAt (i : Nat) : UInt8 := msg.getD i 0

/-- `u16::from_be_bytes` of two bytes. -/
def be16 (i : Nat) : UInt16 := ((byteAt msg i).toUInt16 <<< 8) ||| (byteAt msg (i + 1)).toUInt16

/-- `u32::from_be_bytes` of four bytes. -/
def be32 (i : Nat) : UInt32 := ((be16 msg i).toUInt32 <<< 16) ||| (be16 msg (i + 2)).toUInt32

def toAsciiLowercase (b : UInt8) : UInt8 := if 65 ≤ b ∧ b ≤ 90 then b + 32 else b

def eqIgnoreAsciiCase (a b : List UInt8) : Bool :=
  a.length == b.length && (a.zip b).all fun (x, y) => toAsciiLowercase x == toAsciiLowercase y

structure DnsHeader where
  id : UInt16
  flags : UInt16
  qdcount : UInt16
  ancount : UInt16
  nscount : UInt16
  arcount : UInt16
  deriving DecidableEq, Repr

def DnsHeader.parse : Except DnsError DnsHeader :=
  if bytes.length < dnsHeaderLen then .error .truncated
  else .ok ⟨be16 bytes 0, be16 bytes 2, be16 bytes 4, be16 bytes 6, be16 bytes 8, be16 bytes 10⟩

structure DnsAnswer where
  ttl : UInt32
  addr : Ipv4Addr
  deriving DecidableEq, Repr

/-! ## Names -/

/-- The variables of the loop in `read_name_at_no_alloc`; `out` is the part written so far. -/
structure ReadState where
  offset : Nat
  hops : Nat
  out : List UInt8
  first : Bool
  endOffset : Nat
  followedPointer : Bool

/-- One round of the loop: on, or out with the name and the offset behind it. -/
def readNameStep (currentPos cap : Nat) (s : ReadState) :
    Except DnsError (ReadState ⊕ (List UInt8 × Nat)) :=
  if s.offset ≥ msg.length then .error .truncated
  else
    let byte := byteAt msg s.offset
    if byte = 0 then
      .ok (.inr (s.out, if s.followedPointer then s.endOffset else s.offset + 1))
    else if byte &&& 0xC0 = 0xC0 then
      if s.offset + 1 ≥ msg.length then .error .truncated
      else
        let ptr := (be16 msg s.offset &&& 0x3FFF).toNat
        if ptr ≥ currentPos then .error .pointerForward
        else if s.hops + 1 > dnsCompressionHopLimit then .error .compressionLoop
        else .ok (.inl { s with
          offset := ptr
          hops := s.hops + 1
          endOffset := if s.followedPointer then s.endOffset else s.offset + 2
          followedPointer := true })
    else if byte &&& 0xC0 ≠ 0 then .error .malformed
    else
      let len := byte.toNat
      let offset := s.offset + 1
      if offset + len > msg.length then .error .truncated
      else if !s.first && s.out.length ≥ cap then .error .malformed
      else
        let out := if s.first then s.out else s.out ++ [46]
        if out.length + len > cap then .error .malformed
        else .ok (.inl { s with
          offset := offset + len
          out := out ++ (msg.drop offset).take len
          first := false })

/-- More rounds than the loop can make: every label moves on, and hops are limited. -/
def ReadState.size (s : ReadState) : Nat :=
  (dnsCompressionHopLimit - s.hops) * (msg.length + 1) + (msg.length - s.offset)

/-- The loop, with as much fuel as it can use. -/
def readNameAt (offset currentPos cap : Nat) : Except DnsError (List UInt8 × Nat) :=
  let start : ReadState := ⟨offset, 0, [], true, offset, false⟩
  (loop (readNameStep msg currentPos cap) (start.size msg + 1) start).getD (.error .malformed)

def skipName (offset currentPos : Nat) : Except DnsError Nat := do
  let (_, nameEnd) ← readNameAt msg offset currentPos maxDnsNameLen
  return nameEnd

/-! ## Records -/

def skipRr (offset currentPos : Nat) : Except DnsError (Nat × UInt16 × UInt16) := do
  let nameEnd ← skipName msg offset currentPos
  if nameEnd + 10 > msg.length then .error .truncated
  else
    let rtype := be16 msg nameEnd
    let rclass := be16 msg (nameEnd + 2)
    let rdlen := (be16 msg (nameEnd + 8)).toNat
    let dataEnd := nameEnd + 10 + rdlen
    if dataEnd > msg.length then .error .truncated else .ok (dataEnd, rtype, rclass)

/-- The address record at `offset`. -/
def readAddress (offset : Nat) : Except DnsError DnsAnswer := do
  let nameEnd ← skipName msg offset offset
  if (be16 msg (nameEnd + 8)).toNat ≠ 4 then .error .malformed
  else
    let dataStart := nameEnd + 10
    if dataStart + 4 > msg.length then .error .truncated
    else .ok ⟨be32 msg (nameEnd + 4), .new (byteAt msg dataStart) (byteAt msg (dataStart + 1))
      (byteAt msg (dataStart + 2)) (byteAt msg (dataStart + 3))⟩

/-- The loop over the answer section. -/
def readAnswers (msg : List UInt8) :
    Nat → Nat → Option DnsAnswer → Except DnsError (Nat × Option DnsAnswer)
  | 0, offset, found => .ok (offset, found)
  | count + 1, offset, found => do
    let (rrEnd, rtype, rclass) ← skipRr msg offset offset
    if rtype = rrTypeA ∧ rclass = rrClassIn then
      let answer ← readAddress msg offset
      readAnswers msg count rrEnd (some (found.getD answer))
    else readAnswers msg count rrEnd found

/-- The loops over the other sections. -/
def skipRecords (msg : List UInt8) : Nat → Nat → Except DnsError Nat
  | 0, offset => .ok offset
  | count + 1, offset => do
    let (rrEnd, _, _) ← skipRr msg offset offset
    skipRecords msg count rrEnd

/-! ## Responses -/

/-- `name.strip_suffix('.')`, or the name itself. -/
def stripDot (name : List UInt8) : List UInt8 :=
  if name.getLast? = some 46 then name.dropLast else name

/-- The checks of the header. -/
def checkHeader (hdr : DnsHeader) (expectedId : UInt16) : Except DnsError Unit :=
  let rcode := (hdr.flags &&& flagRcodeMask).toUInt8
  if hdr.id ≠ expectedId then .error .idMismatch
  else if hdr.flags &&& flagQr = 0 then .error .notAResponse
  else if hdr.flags &&& flagTc ≠ 0 then .error .truncated
  else if (hdr.flags &&& flagOpcodeMask) >>> 11 ≠ 0 then .error .malformed
  else if rcode = rcodeNxdomain then .error .nameNotFound
  else if rcode ≠ 0 then .error (.serverFailure rcode)
  else if hdr.qdcount > 1 then .error .malformed
  else if hdr.ancount.toNat > maxDnsAnswers then .error .tooManyRecords
  else .ok ()

/-- The question must be for the name. Returns the offset of the answers. -/
def checkQuestion (expectedName : List UInt8) : Except DnsError Nat := do
  let (qname, qend) ← readNameAt bytes dnsHeaderLen dnsHeaderLen maxDnsNameLen
  if qend + 4 > bytes.length then .error .truncated
  else if qname.length ≠ (stripDot expectedName).length then .error .malformed
  else if !eqIgnoreAsciiCase qname (stripDot expectedName) then .error .malformed
  else .ok (qend + 4)

def parseResponse (expectedId : UInt16) (expectedName : List UInt8) : Except DnsError DnsAnswer := do
  let hdr ← DnsHeader.parse bytes
  checkHeader hdr expectedId
  let offset ← checkQuestion bytes expectedName
  let (offset, found) ← readAnswers bytes hdr.ancount.toNat offset none
  let offset ← skipRecords bytes hdr.nscount.toNat offset
  let _ ← skipRecords bytes hdr.arcount.toNat offset
  okOr found .noAddress

end CleanSlate.Network.Dns
