import CleanSlate.ServicePort.System

/-!
# What a run of the port engine shows

The calls of a run that a client or a server can tell apart, with what each of them says: a SEND
the kernel accepted and its sender, a RECV and the record it returned, a POST, a RECV_EVENT. The
histories of a connection and of a port are read off the trace through `observe`.
-/

namespace CleanSlate.ServicePort

open Lib
open Capability

variable {P C N : Nat} {B : Type}

/-- What a SEND says: the sender the kernel recorded, the frame, and whether a capability rides
along. -/
structure Message where
  pid : UInt64
  domain : UInt64
  generation : UInt64
  frame : Frame
  carries : Bool
  deriving DecidableEq

def Request.message (self : Request) : Message :=
  ⟨self.pid, self.domain, self.generation, self.frame, self.transfer.isSome⟩

/-- The message a received request carries in its envelope. -/
def PortRecvRecord.message (self : PortRecvRecord) : Message :=
  ⟨self.envelope.pid, self.envelope.domain, self.envelope.instanceGeneration, self.frame,
    self.envelope.transfer.isSome⟩

/-- What one call shows. -/
inductive Observation where
  | none
  | registered (port : PortKey)
  | connected (id : ConnectionId)
  | sent (id : ConnectionId) (message : Message)
  | received (port : PortKey) (record : PortRecvRecord)
  | posted (id : ConnectionId) (frame : Frame)
  | returned (id : ConnectionId) (record : PortEventRecord)
  | disconnected (id : ConnectionId)
  | bound (port : PortKey)

/-- One call of a run: the system before and after it, the call and its output. -/
abbrev PortEvent (P C N : Nat) (B : Type) := Event (PortSystem P C N B) (PortOp B) (PortOutput B)

/-- An observation of the connection that `raw` names. -/
def onConnection (raw : UInt64) (obs : ConnectionId → Observation) : Observation :=
  match SlotGenerationId.decode raw with
  | .ok id => obs id
  | .error _ => .none

/-- An observation of the port that the caller serves with the capability `serve`. -/
def onPort (s : PortSystem P C N B) (caller : Caller) (serve : UInt64)
    (obs : PortKey → Observation) : Observation :=
  match s.core.authorizeServe s.table caller serve with
  | .ok p => obs (s.core.key p)
  | .error _ => .none

/-- What a call shows; a failing call, a close and an exit show nothing. -/
def observe (e : PortEvent P C N B) : Observation :=
  match e.input, e.output.result with
  | .register .., .registered (.ok key) => .registered key
  | .connect .., .connected (.ok id) => .connected id
  | .send caller connection frame transfer, .sent (.ok ()) =>
    onConnection connection fun id => .sent id
      ⟨caller.holder.raw, caller.domain, caller.generation, frame, transfer.isSome⟩
  | .recv caller serve, .received (.ok record) =>
    onPort e.pre caller serve fun key => .received key record
  | .post _ _ connection frame, .posted (.ok ()) =>
    onConnection connection fun id => .posted id frame
  | .recvEvent _ connection, .event (.ok record) =>
    onConnection connection fun id => .returned id record
  | .disconnect _ _ connection _, .disconnected (.ok ()) =>
    onConnection connection fun id => .disconnected id
  | .bindWake caller serve .., .bound (.ok ()) =>
    onPort e.pre caller serve fun key => .bound key
  | _, _ => .none

/-- The id a CONNECT returned. -/
def PortOutput.connectedId (output : PortOutput B) : Option ConnectionId :=
  match output.result with
  | .connected (.ok id) => some id
  | _ => none

/-- What a run showed, in order. -/
def history (log : List (PortEvent P C N B)) : List Observation := log.map observe

theorem history_snoc (log : List (PortEvent P C N B)) (e : PortEvent P C N B) :
    history (log ++ [e]) = history log ++ [observe e] := by
  simp [history]

namespace Observation

variable (id : ConnectionId)

/-- The message of a SEND accepted on the connection `id`. -/
def sentOn : Observation → Option Message
  | sent id' message => if id' = id then some message else .none
  | _ => .none

/-- The record of a RECV about the connection `id`. -/
def receivedOn : Observation → Option PortRecvRecord
  | received _ record => if record.envelope.connection = id then some record else .none
  | _ => .none

/-- The record of a RECV by the server of the port `key`. -/
def receivedAt (key : PortKey) : Observation → Option PortRecvRecord
  | received key' record => if key' = key then some record else .none
  | _ => .none

/-- The message of a request of the connection `id` that a RECV delivered. -/
def deliveredOn (obs : Observation) : Option Message :=
  match obs.receivedOn id with
  | some record => if record.kind = .request then some record.message else .none
  | .none => .none

/-- The kernel number of a request that a RECV by the server of the port `key` delivered. -/
def deliveredAt (key : PortKey) (obs : Observation) : Option Nat :=
  match obs.receivedAt key with
  | some record => if record.kind = .request then some record.envelope.kernelSeq else .none
  | .none => .none

/-- The frame of a POST accepted on the connection `id`. -/
def postedOn : Observation → Option Frame
  | posted id' frame => if id' = id then some frame else .none
  | _ => .none

/-- The record of a RECV_EVENT on the connection `id`. -/
def returnedOn : Observation → Option PortEventRecord
  | returned id' record => if id' = id then some record else .none
  | _ => .none

/-- The frame of a RECV_EVENT on the connection `id` that did not end it. -/
def frameOn (obs : Observation) : Option Frame :=
  match obs.returnedOn id with
  | some record => if record.kind = .frame then some record.frame else .none
  | .none => .none

end Observation

end CleanSlate.ServicePort
