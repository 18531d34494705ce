import CleanSlate.Network.Tcp.Transport

/-!
# The life of a connection

What a transport does to the connection of one slot, from `connect` until the slot is freed.
-/

namespace CleanSlate.Network.Tcp

open Lib

/-- A step in the life of a connection, with the link it finds. -/
inductive ConnOp where
  | send (now : Nat) (data : List UInt8) (link : Link)
  | receive (cap : Nat)
  | close (now : Nat) (link : Link)
  | free
  | deliver (now : Nat) (seg : TcpSegment) (payload : List UInt8) (link : Link)
  | pollTimers (now : Nat) (link : Link)
  | pollOutput (now : Nat) (link : Link)

inductive ConnReply where
  | sent (result : Except NetworkError Nat)
  | received (result : Except NetworkError (List UInt8))
  | closed (result : Except NetworkError Unit)
  | polled (result : Except NetworkError Unit)
  | freed

namespace TcpConnection

/-- What a step makes of the connection: `none` if it frees the slot. -/
def apply (self : TcpConnection) : ConnOp → ConnReply × Option TcpConnection
  | .send now data link =>
    let (result, self, _) := self.send now data link
    (.sent result, some self)
  | .receive cap =>
    let (result, self) := self.receive cap
    (.received result, some self)
  | .close now link =>
    let (result, self, _) := self.close now link
    (.closed result, some self)
  | .free => (.freed, none)
  | .deliver now seg payload link =>
    let (result, conn, _) := self.deliver now seg payload link
    (.polled result, conn)
  | .pollTimers now link =>
    let (result, conn, _) := self.pollTimers now link
    (.polled result, conn)
  | .pollOutput now link =>
    let (self, _) := self.pollOutput now link
    (.polled (.ok ()), some self)

/-- A step on a slot; a call on a free slot finds no connection. -/
def step (slot : Option TcpConnection) (op : ConnOp) : ConnReply × Option TcpConnection :=
  match slot with
  | none => (match op with
    | .send .. => .sent (.error .notFound)
    | .receive .. => .received (.error .notFound)
    | .close .. => .closed (.error .notFound)
    | _ => .freed, none)
  | some conn => conn.apply op

end TcpConnection

/-- Who opened a connection, and how. -/
structure Opening where
  owner : TrustedCaller
  localAddr : SocketAddrV4
  remote : SocketAddrV4
  iss : UInt32
  now : Nat
  link : Link

namespace Opening

/-- The connection as `connect` leaves it. -/
def conn (self : Opening) : TcpConnection :=
  ((TcpConnection.new self.owner self.localAddr self.remote self.iss).connect self.now self.link).1

/-- The slot after a life. -/
def after (self : Opening) (ops : List ConnOp) : Option TcpConnection :=
  run TcpConnection.step (some self.conn) ops

end Opening

abbrev ConnEvent := Event (Option TcpConnection) ConnOp ConnReply

end CleanSlate.Network.Tcp
