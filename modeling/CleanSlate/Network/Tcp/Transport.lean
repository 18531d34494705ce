import CleanSlate.Lib.Checks
import CleanSlate.Lib.Run
import CleanSlate.Lib.Slots
import CleanSlate.Network.Tcp.Conn

/-!
# The TCP transport

`network/src/tcp/transport.rs`: a table of connections over an IPv4 stack. The stack is what it
answers: for each call, `answers` holds the results of the transmissions in order, and the frames
that a poll receives are given to it, already parsed. So every behaviour of the stack, of the link
and of the peers is an input.

Each function is split into what it does to the connection of a slot and the rest. An operation on one
slot maps the connection to `none` where the source frees the slot.
-/

namespace CleanSlate.Network.Tcp

open Lib

def maxTcpConnections : Nat := 32
def ephemeralPortBase : UInt16 := 50000
def tcpPollRxBudget : Nat := 64

/-! ## The link -/

/-- A segment handed to the stack. -/
structure Outbound where
  dst : Ipv4Addr
  segment : TcpSegment
  payload : List UInt8

/-- What the stack answers to the transmissions of a call, and what was transmitted so far. -/
structure Link where
  answers : List (Except NetworkError Unit)
  sent : List Outbound

/-- `transmit_raw`. -/
def Link.transmit (self : Link) (dst : Ipv4Addr) (segment : TcpSegment) (payload : List UInt8) :
    Except NetworkError Unit × Link :=
  let sent := self.sent ++ [⟨dst, segment, payload⟩]
  match self.answers with
  | [] => (.ok (), ⟨[], sent⟩)
  | answer :: answers => (answer, ⟨answers, sent⟩)

namespace TcpConnection

/-! ## Transmissions of a connection -/

variable (self : TcpConnection) (now : Nat) (link : Link)

/-- `transmit_tcp_at`: an unresolved neighbour is no error. -/
def transmitTcp (segment : TcpSegment) (payload : List UInt8) (link : Link) :
    Except NetworkError Unit × TcpConnection × Link :=
  match link.transmit self.remote.addr segment payload with
  | (.error .unreachable, link) => (.ok (), self.onUnreachable, link)
  | (result, link) => (result, self, link)

def sendSyn : Except NetworkError Unit × TcpConnection × Link :=
  let segment := synSegment self.localAddr.port self.remote.port self.iss
  let self := (self.recordUnacked self.iss [] true false now).touchConnectDeadline now
  match link.transmit self.remote.addr segment [] with
  | (.error .unreachable, link) => (.error .unreachable, self.onUnreachable, link)
  | (.ok (), link) => (.ok (), { self with sndNxt := self.iss + 1 }, link)
  | (.error other, link) => (.error other, self, link)

def sendAck : Except NetworkError Unit × TcpConnection × Link :=
  self.transmitTcp (self.buildSegment .ack self.sndNxt self.rcvNxt false false) [] link

/-- Our FIN takes the next sequence number. -/
def recordFin : TcpConnection :=
  ({ self with sndNxt := self.sndNxt + 1 } : TcpConnection).recordUnacked self.sndNxt [] false true now

def sendFin : Except NetworkError Unit × TcpConnection × Link :=
  (self.recordFin now).transmitTcp (self.buildSegment .ack self.sndNxt self.rcvNxt false true) [] link

/-- The result of a reset is ignored. -/
def sendRst : Link := (link.transmit self.remote.addr
    (self.buildSegment (TcpFlags.rst.union .ack) self.sndNxt self.rcvNxt false false) []).2

def retransmitAt : Except NetworkError Unit × TcpConnection × Link :=
  match self.unackedForRetransmit with
  | none => (.error .protocol, self, link)
  | some (segment, payload) =>
    match self.transmitTcp segment payload link with
    | (.error error, self, link) => (.error error, self, link)
    | (.ok (), self, link) =>
      (.ok (), if self.state = .synSent then self.touchConnectDeadline now else self, link)

/-- The next data segment, if one may be sent: none while another is in flight. -/
def takeSegment : Option (TcpSegment × List UInt8) × TcpConnection :=
  if self.retransmit.active || self.sendBuf.isEmpty then (none, self)
  else if !(self.state == .established || self.state == .closeWait) then (none, self)
  else
    let maxLen := (min (min self.peerMss self.peerWindow) (UInt16.ofNat maxTcpPayload)).toNat
    let (chunk, self) := self.popSendChunk maxLen
    if chunk.isEmpty then (none, self)
    else
      (some (self.buildSegment (TcpFlags.ack.union .psh) self.sndNxt self.rcvNxt false false, chunk),
        ({ self with sndNxt := self.sndNxt + UInt32.ofNat chunk.length } : TcpConnection).recordUnacked
          self.sndNxt chunk false false now)

def trySendData : Except NetworkError Unit × TcpConnection × Link :=
  match self.takeSegment now with
  | (none, self) => (.ok (), self, link)
  | (some (segment, chunk), self) => self.transmitTcp segment chunk link

/-! ## Calls on the connection of a slot -/

/-- The handshake of `connect`. -/
def connect : TcpConnection × Link :=
  match (self.onConnectStart now).sendSyn now link with
  | (.error .unreachable, self, link) => (self.onUnreachable, link)
  | (_, self, link) => (self.clearPendingSyn, link)

def send (data : List UInt8) (link : Link) : Except NetworkError Nat × TcpConnection × Link :=
  if self.state = .reset then (.error .reset, self, link)
  else if self.state.isTerminal then (.error .closed, self, link)
  else
    match self.queueSend data with
    | (.error error, self) => (.error error, self, link)
    | (.ok written, self) =>
      let (result, self, link) := self.trySendData now link
      (result.map fun _ => written, self, link)

def close : Except NetworkError Unit × TcpConnection × Link :=
  match self.startClose with
  | (true, self) => self.sendFin now link
  | (false, self) => (.ok (), self, link)

/-- A connection that failed is kept only for the bytes that can still be read. -/
def freeUnlessBuffered : Option TcpConnection := if self.hasBufferedRecv then some self else none

/-- A poll delivers a segment. -/
def deliver (seg : TcpSegment) (payload : List UInt8)
    (link : Link) : Except NetworkError Unit × Option TcpConnection × Link :=
  match self.onSegment seg payload with
  | (.sendAck, self) =>
    match self.sendAck link with
    | (.error error, self, link) => (.error error, some self, link)
    | (.ok (), self, link) =>
      (.ok (), some (if self.state = .timeWait then self.enterTimeWait now else self), link)
  | (.maybeSendData, self) =>
    let (_, self, link) := self.trySendData now link
    (.ok (), some self, link)
  | (.closed, _) => (.ok (), none, link)
  | (.failed _, self) => (.ok (), self.freeUnlessBuffered, link)
  | (.none, self) => (.ok (), some self, link)

/-- A poll runs the timers. -/
def pollTimers : Except NetworkError Unit × Option TcpConnection × Link :=
  match self.tickTimers now with
  | (.retransmit, self) =>
    let (result, self, link) := self.retransmitAt now link
    (result, some self, link)
  | (.closed, _) => (.ok (), none, link)
  | (.failed _, self) => (.ok (), self.freeUnlessBuffered, link)
  | (.none, self) => (.ok (), some self, link)

/-- A poll sends what is waiting: a SYN again, or data. Errors are ignored. -/
def pollOutput : TcpConnection × Link :=
  if self.needsSynRetry then
    match self.sendSyn now link with
    | (.ok (), self, link) => (self.clearPendingSyn, link)
    | (.error _, self, link) => (self, link)
  else if self.state == .established || self.state == .closeWait then
    (self.trySendData now link).2
  else (self, link)

end TcpConnection

/-! ## The table -/

structure TcpTable where
  generation : SessionGeneration
  slots : Fin maxTcpConnections → Option TcpConnection
  issCounter : UInt64

namespace TcpTable

def new (generation : SessionGeneration) : TcpTable := ⟨generation, fun _ => none, 0⟩

variable (self : TcpTable)

def set (index : Fin maxTcpConnections) (conn : Option TcpConnection) : TcpTable :=
  { self with slots := Function.update self.slots index conn }

/-- The first free slot takes a new connection. -/
def allocSlot (owner : TrustedCaller) (remote : SocketAddrV4) (ourIp : Ipv4Addr) :
    Option (Fin maxTcpConnections × TcpConnection × TcpTable) :=
  match Slots.position (·.isNone) self.slots with
  | none => none
  | some index =>
    let localAddr : SocketAddrV4 := ⟨ourIp, ephemeralPortBase + UInt16.ofNat index⟩
    let iss := deterministicIss self.generation (UInt32.ofNat index) self.issCounter
    let conn := TcpConnection.new owner localAddr remote iss
    some (index, conn, { self.set index conn with issCounter := self.issCounter + 1 })

def checkId (id : SessionId) (owner : TrustedCaller) :
    Except NetworkError (Fin maxTcpConnections × TcpConnection) :=
  if !id.matchesGeneration self.generation then .error (.denied .staleGeneration)
  else if h : id.index.toNat < maxTcpConnections then
    match self.slots ⟨id.index.toNat, h⟩ with
    | none => .error .notFound
    | some conn =>
      if conn.owner ≠ owner then .error (.denied .noCapability) else .ok (⟨id.index.toNat, h⟩, conn)
  else .error .notFound

/-- The connection between a local port and a remote endpoint. -/
def findByQuad (localPort : UInt16) (remote : SocketAddrV4) : Option (Fin maxTcpConnections) :=
  Slots.position (·.any fun c => c.localAddr.port == localPort && c.remote == remote) self.slots

end TcpTable

/-! ## The transport -/

structure TcpTransport where
  ourIp : Ipv4Addr
  table : TcpTable

/-- What the stack delivers: a TCP segment and its payload, or something else. -/
inductive Inbound where
  | tcp (src : Ipv4Addr) (seg : TcpSegment) (payload : List UInt8)
  | other

namespace TcpTransport

def new (ourIp : Ipv4Addr) (generation : SessionGeneration) : TcpTransport :=
  ⟨ourIp, .new generation⟩

variable (self : TcpTransport)

def set (index : Fin maxTcpConnections) (conn : Option TcpConnection) : TcpTransport :=
  { self with table := self.table.set index conn }

def connect (now : Nat) (owner : TrustedCaller) (remote : SocketAddrV4) (link : Link) :
    Except NetworkError SessionId × TcpTransport × Link :=
  match self.table.allocSlot owner remote self.ourIp with
  | none => (.error .sessionExhausted, self, link)
  | some (index, conn, table) =>
    let (conn, link) := conn.connect now link
    (.ok (.new table.generation (UInt32.ofNat index)), { self with table := table.set index conn },
      link)

def state (id : SessionId) (owner : TrustedCaller) : Except NetworkError TcpState :=
  (self.table.checkId id owner).map (·.2.state)

def send (now : Nat) (id : SessionId) (owner : TrustedCaller) (data : List UInt8) (link : Link) :
    Except NetworkError Nat × TcpTransport × Link :=
  match self.table.checkId id owner with
  | .error error => (.error error, self, link)
  | .ok (index, conn) =>
    let (result, conn, link) := conn.send now data link
    (result, self.set index conn, link)

def receive (id : SessionId) (owner : TrustedCaller) (cap : Nat) :
    Except NetworkError (List UInt8) × TcpTransport :=
  match self.table.checkId id owner with
  | .error error => (.error error, self)
  | .ok (index, conn) =>
    let (result, conn) := conn.receive cap
    (result, self.set index conn)

def close (now : Nat) (id : SessionId) (owner : TrustedCaller) (link : Link) :
    Except NetworkError Unit × TcpTransport × Link :=
  match self.table.checkId id owner with
  | .error error => (.error error, self, link)
  | .ok (index, conn) =>
    let (result, conn, link) := conn.close now link
    (result, self.set index conn, link)

def abort (id : SessionId) (owner : TrustedCaller) : Except NetworkError Unit × TcpTransport :=
  match self.table.checkId id owner with
  | .error error => (.error error, self)
  | .ok (index, _) => (.ok (), self.set index none)

/-- One slot of `on_holder_exit`. -/
def exitSlot (owner : TrustedCaller) (acc : Nat × TcpTransport × Link)
    (index : Fin maxTcpConnections) : Nat × TcpTransport × Link :=
  let (count, self, link) := acc
  match self.table.slots index with
  | none => acc
  | some conn =>
    if conn.owner = owner ∧ !conn.state.isTerminal then
      (count + 1, self.set index none, conn.sendRst link)
    else acc

def onHolderExit (owner : TrustedCaller) (link : Link) : Nat × TcpTransport × Link :=
  (List.finRange maxTcpConnections).foldl (exitSlot owner) (0, self, link)

def nextTimerDeadline : Option Nat :=
  ((List.finRange maxTcpConnections).filterMap fun i =>
    (self.table.slots i).bind (·.nextTimerDeadline)).min?

/-- One slot of `reset`. -/
def resetSlot (link : Link) (index : Fin maxTcpConnections) : Link :=
  match self.table.slots index with
  | none => link
  | some conn => if conn.state.isTerminal then link else conn.sendRst link

def reset (link : Link) : TcpTransport × Link :=
  ({ self with table := { self.table with slots := fun _ => none } },
    (List.finRange maxTcpConnections).foldl self.resetSlot link)

/-! ### Polling -/

/-- One received frame. -/
def pollFrame (now : Nat) (frame : Inbound) (link : Link) :
    Except NetworkError Unit × TcpTransport × Link :=
  match frame with
  | .other => (.ok (), self, link)
  | .tcp src seg payload =>
    match self.table.findByQuad seg.dstPort ⟨src, seg.srcPort⟩ with
    | none => (.ok (), self, link)
    | some index =>
      match self.table.slots index with
      | none => (.ok (), self, link)
      | some conn =>
        let (result, conn, link) := conn.deliver now seg payload link
        (result, self.set index conn, link)

/-- The first loop of `poll`. An error of the stack or of an acknowledgement ends the poll. -/
def pollFrames (self : TcpTransport) (now : Nat) (link : Link) :
    List (Except NetworkError Inbound) → Except NetworkError Unit × TcpTransport × Link
  | [] => (.ok (), self, link)
  | .error error :: _ => (.error error, self, link)
  | .ok frame :: frames =>
    match self.pollFrame now frame link with
    | (.error error, self, link) => (.error error, self, link)
    | (.ok (), self, link) => pollFrames self now link frames

/-- The second loop. An error of a retransmission ends the poll. -/
def pollTimers (self : TcpTransport) (now : Nat) (link : Link) :
    List (Fin maxTcpConnections) → Except NetworkError Unit × TcpTransport × Link
  | [] => (.ok (), self, link)
  | index :: rest =>
    match self.table.slots index with
    | none => pollTimers self now link rest
    | some conn =>
      match conn.pollTimers now link with
      | (.error error, conn, link) => (.error error, self.set index conn, link)
      | (.ok (), conn, link) => pollTimers (self.set index conn) now link rest

/-- One slot of the third loop. -/
def pollOutput (now : Nat) (acc : TcpTransport × Link) (index : Fin maxTcpConnections) :
    TcpTransport × Link :=
  let (self, link) := acc
  match self.table.slots index with
  | none => acc
  | some conn =>
    let (conn, link) := conn.pollOutput now link
    (self.set index conn, link)

def poll (now : Nat) (frames : List (Except NetworkError Inbound))
    (link : Link) : Except NetworkError Unit × TcpTransport × Link :=
  match self.pollFrames now link (frames.take tcpPollRxBudget) with
  | (.error error, self, link) => (.error error, self, link)
  | (.ok (), self, link) =>
    match self.pollTimers now link (List.finRange maxTcpConnections) with
    | (.error error, self, link) => (.error error, self, link)
    | (.ok (), self, link) =>
      (.ok (), (List.finRange maxTcpConnections).foldl (pollOutput now) (self, link))

end TcpTransport

/-! ## Runs -/

inductive TcpOp where
  | connect (now : Nat) (owner : TrustedCaller) (remote : SocketAddrV4)
  | send (now : Nat) (id : SessionId) (owner : TrustedCaller) (data : List UInt8)
  | receive (id : SessionId) (owner : TrustedCaller) (cap : Nat)
  | close (now : Nat) (id : SessionId) (owner : TrustedCaller)
  | abort (id : SessionId) (owner : TrustedCaller)
  | onHolderExit (owner : TrustedCaller)
  | reset
  | poll (now : Nat) (frames : List (Except NetworkError Inbound))

inductive TcpReply where
  | connected (result : Except NetworkError SessionId)
  | sent (result : Except NetworkError Nat)
  | received (result : Except NetworkError (List UInt8))
  | closed (result : Except NetworkError Unit)
  | aborted (result : Except NetworkError Unit)
  | exited (count : Nat)
  | done
  | polled (result : Except NetworkError Unit)

/-- A call and the answers of the stack to its transmissions. -/
def TcpTransport.step (self : TcpTransport) (op : TcpOp × List (Except NetworkError Unit)) :
    TcpReply × TcpTransport :=
  let link : Link := ⟨op.2, []⟩
  match op.1 with
  | .connect now owner remote =>
    let (result, self, _) := self.connect now owner remote link
    (.connected result, self)
  | .send now id owner data =>
    let (result, self, _) := self.send now id owner data link
    (.sent result, self)
  | .receive id owner cap =>
    let (result, self) := self.receive id owner cap
    (.received result, self)
  | .close now id owner =>
    let (result, self, _) := self.close now id owner link
    (.closed result, self)
  | .abort id owner =>
    let (result, self) := self.abort id owner
    (.aborted result, self)
  | .onHolderExit owner =>
    let (count, self, _) := self.onHolderExit owner link
    (.exited count, self)
  | .reset => (.done, (self.reset link).1)
  | .poll now frames =>
    let (result, self, _) := self.poll now frames link
    (.polled result, self)

end CleanSlate.Network.Tcp
