import CleanSlate.Lib.Ring
import CleanSlate.Network.Types

/-!
# A TCP client connection

`network/src/tcp/conn.rs`, with the segment type and the flags of `tcp/segment.rs`. Sequence numbers
are 32-bit words and wrap. The counters of `TcpStats` are left out: nothing reads them. The copy kept
for retransmission is the list of its bytes.
-/

namespace CleanSlate.Network.Tcp

open Lib

/-! ## Constants -/

def maxTcpPayload : Nat := 1500 - 20 - 20
def ourTcpMss : UInt16 := 1460
def tcpSendBufferBytes : Nat := 4096
def tcpRecvBufferBytes : Nat := 4096
def tcpMaxRetries : Nat := 5
def tcpRtoTicks : Nat := 50
def tcpTimeWaitTicks : Nat := 200
def tcpConnectTimeoutTicks : Nat := 500

/-! ## Segments -/

structure TcpFlags where
  raw : UInt8
  deriving DecidableEq, Repr

namespace TcpFlags

def fin : TcpFlags := ⟨0x01⟩
def syn : TcpFlags := ⟨0x02⟩
def rst : TcpFlags := ⟨0x04⟩
def psh : TcpFlags := ⟨0x08⟩
def ack : TcpFlags := ⟨0x10⟩

def contains (self other : TcpFlags) : Bool := (self.raw &&& other.raw) == other.raw

def union (self other : TcpFlags) : TcpFlags := ⟨self.raw ||| other.raw⟩

end TcpFlags

structure TcpSegment where
  srcPort : UInt16
  dstPort : UInt16
  seq : UInt32
  ack : UInt32
  dataOffset : UInt8
  flags : TcpFlags
  window : UInt16
  checksum : UInt16
  urgent : UInt16
  mssOption : Option UInt16
  deriving DecidableEq, Repr

def synSegment (srcPort dstPort : UInt16) (seq : UInt32) : TcpSegment where
  srcPort
  dstPort
  seq
  ack := 0
  dataOffset := 6
  flags := .syn
  window := 4096
  checksum := 0
  urgent := 0
  mssOption := some ourTcpMss

/-! ## Sequence numbers -/

/-- `(a.wrapping_sub(b) as i32) < 0`: the top bit of the difference. -/
def seqLt (a b : UInt32) : Bool := 0x80000000 ≤ a - b

def seqLe (a b : UInt32) : Bool := a == b || seqLt a b

def ackValid (ack sndUna sndNxt : UInt32) : Bool := seqLe sndUna ack && seqLe ack sndNxt

def occupiesSequenceSpace (seg : TcpSegment) (payload : List UInt8) : Bool :=
  !payload.isEmpty || seg.flags.contains .syn || seg.flags.contains .fin

def seqAcceptable (seq rcvNxt : UInt32) : Bool := seq == rcvNxt

/-! ## Byte rings -/

/-- A byte ring that is never over its capacity. -/
structure RingBuf (n : Nat) where
  ring : Ring UInt8 n
  fits : ring.len ≤ n

namespace RingBuf

variable {n : Nat} [NeZero n]

def new : RingBuf n := ⟨⟨Fin.ofNat n 0, 0, fun _ => 0⟩, Nat.zero_le n⟩

variable (self : RingBuf n)

def isEmpty : Bool := self.ring.len == 0

def freeSpace : Nat := n - self.ring.len

def clear : RingBuf n := ⟨self.ring.clear, Nat.zero_le n⟩

def push (data : List UInt8) : Nat × RingBuf n :=
  ((self.ring.pushSlice data).1, ⟨(self.ring.pushSlice data).2, by
    rw [self.ring.len_pushSlice data self.fits]
    have := self.fits
    omega⟩)

/-- `pop` into a slice of `cap` bytes. -/
def pop (cap : Nat) : List UInt8 × RingBuf n :=
  ((self.ring.popSlice cap).1, ⟨(self.ring.popSlice cap).2,
    Nat.le_trans (Nat.sub_le _ _) self.fits⟩)

end RingBuf

instance : NeZero tcpSendBufferBytes := ⟨by decide⟩
instance : NeZero tcpRecvBufferBytes := ⟨by decide⟩

/-! ## Connections -/

inductive TcpState where
  | closed
  | synSent
  | established
  | finWait1
  | finWait2
  | closing
  | timeWait
  | closeWait
  | lastAck
  | reset
  deriving DecidableEq, Repr

def TcpState.isTerminal (self : TcpState) : Bool := self == closed || self == reset

/-- The segment kept for retransmission. -/
structure Unacked where
  active : Bool
  seq : UInt32
  syn : Bool
  fin : Bool
  data : List UInt8

def Unacked.empty : Unacked := ⟨false, 0, false, false, []⟩

structure TcpConnection where
  owner : TrustedCaller
  localAddr : SocketAddrV4
  remote : SocketAddrV4
  state : TcpState
  sndUna : UInt32
  sndNxt : UInt32
  iss : UInt32
  rcvNxt : UInt32
  irs : UInt32
  peerWindow : UInt16
  peerMss : UInt16
  sendBuf : RingBuf tcpSendBufferBytes
  recvBuf : RingBuf tcpRecvBufferBytes
  retransmit : Unacked
  rtoDeadline : Option Nat
  rtoRetries : Nat
  timeWaitDeadline : Option Nat
  connectDeadline : Option Nat
  pendingSyn : Bool
  peerFinSeen : Bool
  ourFinSent : Bool
  failed : Option NetworkError

inductive TimerAction where
  | none
  | retransmit
  | closed
  | failed (error : NetworkError)

inductive SegmentAction where
  | none
  | sendAck
  | maybeSendData
  | closed
  | failed (error : NetworkError)

namespace TcpConnection

def new (owner : TrustedCaller) (localAddr remote : SocketAddrV4) (iss : UInt32) :
    TcpConnection where
  owner
  localAddr
  remote
  state := .synSent
  sndUna := iss
  sndNxt := iss
  iss
  rcvNxt := 0
  irs := 0
  peerWindow := ourTcpMss
  peerMss := ourTcpMss
  sendBuf := .new
  recvBuf := .new
  retransmit := .empty
  rtoDeadline := none
  rtoRetries := 0
  timeWaitDeadline := none
  connectDeadline := none
  pendingSyn := true
  peerFinSeen := false
  ourFinSent := false
  failed := none

variable (self : TcpConnection) (seg : TcpSegment) (payload : List UInt8)

def advertisedWindow : UInt16 := UInt16.ofNat (min self.recvBuf.freeSpace 65535)

def releaseBuffers : TcpConnection := { self with
    sendBuf := self.sendBuf.clear
    recvBuf := self.recvBuf.clear
    retransmit := .empty
    rtoDeadline := none }

def touchConnectDeadline (now : Nat) : TcpConnection :=
  { self with connectDeadline := some (now + tcpConnectTimeoutTicks) }

def onConnectStart (now : Nat) : TcpConnection :=
  { self.touchConnectDeadline now with pendingSyn := true }

/-! ### Timers -/

/-- Gives up: what `tick_timers` does when a deadline or the retries are exhausted. -/
def timeOut : TimerAction × TcpConnection := (.failed .timeout,
    { ({ self with state := .reset } : TcpConnection).releaseBuffers with failed := some .timeout })

/-- The connect deadline and the retransmission timer. -/
def tickRetransmit (now : Nat) : TimerAction × TcpConnection :=
  if self.state = .synSent ∧ self.connectDeadline.any (· ≤ now) then self.timeOut
  else if self.retransmit.active ∧ self.rtoDeadline.any (· ≤ now) then
    if self.state ≠ .synSent ∧ self.rtoRetries ≥ tcpMaxRetries then self.timeOut
    else (.retransmit, { self with
      rtoRetries := if self.state ≠ .synSent then self.rtoRetries + 1 else self.rtoRetries
      rtoDeadline := some (now + tcpRtoTicks) })
  else (.none, self)

def tickTimers (now : Nat) : TimerAction × TcpConnection :=
  match self.failed with
  | some error => (.failed error, self)
  | none =>
    if self.state = .timeWait then
      -- the deadline is armed here if no transition has armed it
      let deadline := self.timeWaitDeadline.getD (now + tcpTimeWaitTicks)
      let self := { self with timeWaitDeadline := some deadline }
      if now ≥ deadline then
        (.closed, ({ self with state := .closed } : TcpConnection).releaseBuffers)
      else self.tickRetransmit now
    else self.tickRetransmit now

/-- The earlier of the deadlines considered so far. -/
def consider (next : Option Nat) (deadline : Nat) : Option Nat :=
  some (next.elim deadline (min · deadline))

/-- A TIME-WAIT whose deadline is not armed is due now, so that the next poll arms it. -/
def nextTimerDeadline : Option Nat :=
  if self.failed.isSome then none else
    let next := if self.state = .timeWait then consider none (self.timeWaitDeadline.getD 0) else none
    let next := if self.state = .synSent then self.connectDeadline.elim next (consider next) else next
    if self.retransmit.active then self.rtoDeadline.elim next (consider next) else next

def onUnreachable : TcpConnection :=
  if self.state = .synSent then { self with pendingSyn := true } else self

def needsSynRetry : Bool := self.pendingSyn && self.state == .synSent

def clearPendingSyn : TcpConnection := { self with pendingSyn := false }

/-! ### Inbound segments -/

def applyAck (ack : UInt32) : TcpConnection :=
  if seqLe self.sndUna ack && seqLe ack self.sndNxt then
    let self := { self with sndUna := ack }
    if self.sndUna = self.sndNxt then
      { self with
        retransmit := { self.retransmit with active := false }
        rtoDeadline := none
        rtoRetries := 0 }
    else self
  else self

/-- What the synchronized states do with an acknowledgement. -/
def takeAck : TcpConnection :=
  if seg.flags.contains .ack && ackValid seg.ack self.sndUna self.sndNxt then self.applyAck seg.ack
  else self

/-- A segment that occupies sequence space must start at `rcv_nxt`. -/
def isUnacceptable : Bool := occupiesSequenceSpace seg payload && seg.seq != self.rcvNxt

/-- Stores a part of the stream and moves `rcv_nxt` behind it. -/
def takeData (data : List UInt8) : TcpConnection := { self with
    recvBuf := (self.recvBuf.push data).2
    rcvNxt := self.rcvNxt + UInt32.ofNat data.length }

/-- Stores what there is room for. -/
def takePayload : TcpConnection :=
  self.takeData (payload.take (min payload.length self.recvBuf.freeSpace))

def onSynSent : SegmentAction × TcpConnection :=
  if !seg.flags.contains .syn || !seg.flags.contains .ack then (.none, self)
  else if seg.ack ≠ self.iss + 1 then (.none, self)
  else
    let self := { self with
      pendingSyn := false
      retransmit := { self.retransmit with active := false }
      rtoDeadline := none
      rtoRetries := 0
      irs := seg.seq
      rcvNxt := seg.seq + 1
      peerMss := match seg.mssOption with
        | some mss => min mss ourTcpMss
        | none => self.peerMss
      peerWindow := seg.window
      sndUna := self.iss + 1
      sndNxt := self.iss + 1
      state := .established
      connectDeadline := none }
    -- data on the SYN-ACK starts right after the SYN
    (.sendAck, self.takePayload payload)

/-- What `on_established` does with sequence space that starts at `rcv_nxt`. -/
def acceptInOrder : TcpConnection :=
  let consume := payload.length + if seg.flags.contains .syn then 1 else 0
  let accept := min consume self.recvBuf.freeSpace
  let dataTake := min accept payload.length
  let self := self.takeData (payload.take dataTake)
  let self := if seg.flags.contains .syn then { self with rcvNxt := self.rcvNxt + 1 } else self
  if seg.flags.contains .fin then
    { self with peerFinSeen := true, rcvNxt := self.rcvNxt + 1, state := .closeWait }
  else self

def onEstablished : SegmentAction × TcpConnection :=
  let self := { self.takeAck seg with peerWindow := seg.window }
  if self.isUnacceptable seg payload then (.sendAck, self)
  else if occupiesSequenceSpace seg payload then (.sendAck, self.acceptInOrder seg payload)
  else if seg.flags.contains .ack && ackValid seg.ack self.sndUna self.sndNxt then
    (.maybeSendData, self)
  else (.none, self)

/-- The state that follows FIN-WAIT-1, from what has been exchanged. -/
def afterFinWait1 : TcpState :=
  let ourFinAcked := self.ourFinSent && self.sndUna == self.sndNxt
  match self.peerFinSeen, ourFinAcked with
  | true, true => .timeWait
  | true, false => .closing
  | false, true => .finWait2
  | false, false => .finWait1

def onFinWait1 : SegmentAction × TcpConnection :=
  let (action, self) := self.onEstablished seg payload
  (action, { self with state := self.afterFinWait1 })

def onFinWait2 : SegmentAction × TcpConnection :=
  let self := self.takeAck seg
  if self.isUnacceptable seg payload then (.sendAck, self)
  else if !payload.isEmpty then (.sendAck, self.takePayload payload)
  else if seg.flags.contains .fin then
    (.sendAck, { self with peerFinSeen := true, rcvNxt := self.rcvNxt + 1, state := .timeWait })
  else (.none, self)

def onClosing : SegmentAction × TcpConnection :=
  let valid := seg.flags.contains .ack && ackValid seg.ack self.sndUna self.sndNxt
  let self := self.takeAck seg
  let self := if valid && self.sndUna == self.sndNxt then { self with state := .timeWait } else self
  if self.isUnacceptable seg payload then (.sendAck, self) else (.none, self)

def onTimeWait : SegmentAction × TcpConnection :=
  if self.isUnacceptable seg payload then (.sendAck, self) else (.none, self)

def onLastAck : SegmentAction × TcpConnection :=
  if seg.flags.contains .ack && seg.ack == self.sndNxt then
    (.closed, ({ self with state := .closed } : TcpConnection).releaseBuffers)
  else if self.isUnacceptable seg payload then (.sendAck, self)
  else (.none, self)

def onCloseWait : SegmentAction × TcpConnection :=
  let self := self.takeAck seg
  if self.isUnacceptable seg payload then (.sendAck, self)
  else if !payload.isEmpty then (.sendAck, self.takePayload payload)
  else (.maybeSendData, self)

/-- A reset must acknowledge our SYN, or carry the next expected sequence number. -/
def resetAcceptable : Bool :=
  if self.state = .synSent then seg.flags.contains .ack && seg.ack == self.iss + 1
  else seqAcceptable seg.seq self.rcvNxt

/-- The handler of the state. -/
def dispatch : SegmentAction × TcpConnection :=
  match self.state with
  | .synSent => self.onSynSent seg payload
  | .established => self.onEstablished seg payload
  | .finWait1 => self.onFinWait1 seg payload
  | .finWait2 => self.onFinWait2 seg payload
  | .closing => self.onClosing seg payload
  | .lastAck => self.onLastAck seg payload
  | .timeWait => self.onTimeWait seg payload
  | .closeWait => self.onCloseWait seg payload
  | .closed | .reset => (.none, self)

def onSegment : SegmentAction × TcpConnection :=
  match self.failed with
  | some error => (.failed error, self)
  | none =>
    if seg.flags.contains .rst then
      if self.resetAcceptable seg then
        (.failed .reset, { ({ self with state := .reset } : TcpConnection).releaseBuffers with
          failed := some .reset })
      else (.none, self)
    else self.dispatch seg payload

/-! ### The application -/

def queueSend (data : List UInt8) : Except NetworkError Nat × TcpConnection :=
  if self.state.isTerminal || self.state == .reset then (.error .closed, self)
  else if !(self.state == .established || self.state == .closeWait) then (.error .closed, self)
  else
    let (n, sendBuf) := self.sendBuf.push data
    let self := { self with sendBuf }
    if n == 0 && !data.isEmpty then (.error .queueFull, self) else (.ok n, self)

def hasBufferedRecv : Bool := !self.recvBuf.isEmpty

/-- `receive` into a slice of `cap` bytes. -/
def receive (cap : Nat) : Except NetworkError (List UInt8) × TcpConnection :=
  let (out, recvBuf) := self.recvBuf.pop cap
  let self := { self with recvBuf }
  if out.length > 0 then (.ok out, self)
  else if self.state = .reset then (.error .reset, self)
  else if self.peerFinSeen && self.recvBuf.isEmpty then (.error .closed, self)
  else (.ok out, self)

def startClose : Bool × TcpConnection :=
  if self.state = .established then (true, { self with state := .finWait1, ourFinSent := true })
  else if self.state = .closeWait then (true, { self with state := .lastAck, ourFinSent := true })
  else (false, self)

def enterTimeWait (now : Nat) : TcpConnection :=
  { self with state := .timeWait, timeWaitDeadline := some (now + tcpTimeWaitTicks) }

/-! ### Outbound segments -/

def buildSegment (flags : TcpFlags) (seq ack : UInt32) (syn fin : Bool) : TcpSegment where
  srcPort := self.localAddr.port
  dstPort := self.remote.port
  seq
  ack
  dataOffset := if syn then 6 else 5
  flags := let flags := if syn then flags.union .syn else flags
    if fin then flags.union .fin else flags
  window := self.advertisedWindow
  checksum := 0
  urgent := 0
  mssOption := if syn then some ourTcpMss else none

def recordUnacked (seq : UInt32) (payload : List UInt8) (syn fin : Bool)
    (now : Nat) : TcpConnection :=
  { self with
    retransmit := ⟨true, seq, syn, fin, payload⟩
    rtoDeadline := some (now + tcpRtoTicks) }

def unackedForRetransmit : Option (TcpSegment × List UInt8) :=
  if !self.retransmit.active then none
  else
    let flags := if self.retransmit.syn then TcpFlags.syn
      else TcpFlags.ack.union (if self.retransmit.fin then .fin else ⟨0⟩)
    some (self.buildSegment flags self.retransmit.seq self.rcvNxt self.retransmit.syn
      self.retransmit.fin, self.retransmit.data)

def popSendChunk (maxLen : Nat) : List UInt8 × TcpConnection :=
  let (chunk, sendBuf) := self.sendBuf.pop (min maxLen maxTcpPayload)
  (chunk, { self with sendBuf })

end TcpConnection

/-- The initial sequence number of a connection. -/
def deterministicIss (generation : SessionGeneration) (index : UInt32) (counter : UInt64) :
    UInt32 :=
  generation.raw.toUInt32 ^^^ (index * 0x9E3779B9) ^^^ (counter.toUInt32 * 0x85EBCA6B)

end CleanSlate.Network.Tcp
