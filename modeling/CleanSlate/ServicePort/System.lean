import CleanSlate.Capability.Ops
import CleanSlate.ServicePort.Engine

/-!
# The port engine as a transition system

The kernel runs one port core against its capability table, one call at a time, each with fresh
effects (`with_ports` in `kernel/src/service/port.rs`). An input is a call by any client or server,
a holder's exit, or any operation of somebody else on the capability table.
-/

namespace CleanSlate.ServicePort

open Lib
open Capability

variable {P C N : Nat} {B : Type} [DecidableEq B]

/-- The port core and the capability table it works against. -/
structure PortSystem (P C N : Nat) (B : Type) where
  core : PortCore P C B
  table : CapabilityTable N

inductive PortOp (B : Type) where
  | register (resource : ResourceRef) (server : HolderId) (serverGeneration : UInt64)
    (params : PortParams)
  | unregister (key : PortKey)
  | connect (caller : Caller) (handle resourceClass id : UInt64)
  | send (caller : Caller) (connection : UInt64) (frame : Frame) (transfer : Option Transfer)
  | recvEvent (caller : Caller) (connection : UInt64)
  | close (caller : Caller) (connection : UInt64) (reason : UInt32)
  | recv (caller : Caller) (serve : UInt64)
  | post (caller : Caller) (serve connection : UInt64) (frame : Frame)
  | disconnect (caller : Caller) (serve connection : UInt64) (reason : UInt32)
  | bindWake (caller : Caller) (serve : UInt64) (target : B) (requestBit noticeBit : UInt32)
  | holderExit (holder : HolderId) (generation : UInt64)
  /-- A grant, delegation, revocation or release outside the port engine. -/
  | table (op : TableOp)

inductive PortResult where
  | registered (result : Except RegistrationError PortKey)
  | unregistered (result : Bool)
  | connected (result : Except PortError ConnectionId)
  | sent (result : Except PortError Unit)
  | event (result : Except PortError PortEventRecord)
  | closed (result : Except PortError Unit)
  | received (result : Except PortError PortRecvRecord)
  | posted (result : Except PortError Unit)
  | disconnected (result : Except PortError Unit)
  | bound (result : Except PortError Unit)
  | exited (result : PortReleaseCounts)
  | table (result : TableResult)

/-- The result of a call and the effects it owes. -/
structure PortOutput (B : Type) where
  result : PortResult
  effects : Effects B

/-- The state a call starts in: fresh effects. -/
def PortSystem.call (s : PortSystem P C N B) : CallState P C N B := ⟨s.core, s.table, .new⟩

/-- The output and the system a call leaves. -/
def CallState.return (state : CallState P C N B) (result : PortResult) :
    PortOutput B × PortSystem P C N B :=
  (⟨result, state.effects⟩, ⟨state.core, state.table⟩)

def portStep (s : PortSystem P C N B) : PortOp B → PortOutput B × PortSystem P C N B
  | .register resource server serverGeneration params =>
    let (result, core) := ServicePort.register s.core resource server serverGeneration params
    (⟨.registered result, .new⟩, { s with
      core := core })
  | .unregister key =>
    let (result, state) := ServicePort.unregister s.call key
    state.return (.unregistered result)
  | .connect caller handle resourceClass id =>
    let (result, core) := ServicePort.connect s.core s.table caller handle resourceClass id
    (⟨.connected result, .new⟩, { s with
      core := core })
  | .send caller connection frame transfer =>
    let (result, state) := ServicePort.send s.call caller connection frame transfer
    state.return (.sent result)
  | .recvEvent caller connection =>
    let (result, state) := ServicePort.recvEvent s.call caller connection
    state.return (.event result)
  | .close caller connection reason =>
    let (result, state) := ServicePort.close s.call caller connection reason
    state.return (.closed result)
  | .recv caller serve =>
    let (result, state) := ServicePort.recv s.call caller serve
    state.return (.received result)
  | .post caller serve connection frame =>
    let (result, state) := ServicePort.post s.call caller serve connection frame
    state.return (.posted result)
  | .disconnect caller serve connection reason =>
    let (result, state) := ServicePort.disconnect s.call caller serve connection reason
    state.return (.disconnected result)
  | .bindWake caller serve target requestBit noticeBit =>
    let (result, state) := ServicePort.bindWake s.call caller serve target requestBit noticeBit
    state.return (.bound result)
  | .holderExit holder generation =>
    let (result, state) := ServicePort.onHolderExit s.call holder generation
    state.return (.exited result)
  | .table op =>
    let (result, table) := tableStep s.table op
    (⟨.table result, .new⟩, { s with
      table := table })

end CleanSlate.ServicePort
