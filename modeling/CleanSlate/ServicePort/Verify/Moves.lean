import CleanSlate.ServicePort.Observation
import CleanSlate.ServicePort.Verify.Loops

/-!
# The moves of the port core

Every call of the engine changes the core by one move, or by a chain of silent ones: a connection
ended by its client, one freed after its terminal event, a port torn down. A move lists what the
call checked before it, what it shows, the effects it owes and the core it leaves
(`portStep_steps`). Every invariant of the engine is then a statement about moves.
-/

namespace CleanSlate.ServicePort

open Lib
open Capability

variable {P C N : Nat} {B : Type}

/-- The port `register` leaves. -/
def Port.registered (port : Port B) (resource : ResourceRef) (rights : PortRights)
    (server : HolderId) (serverGeneration : UInt64) (params : PortParams) : Port B := { port with
  generation := port.generation + 1
  live := true
  resource := resource
  rights := rights
  server := server
  serverGeneration := serverGeneration
  params := params
  nextSeq := 1
  transfersInFlight := 0
  wake := none }

/-- The port of a new binding. -/
def Port.bind (port : Port B) (wake : WakeBinding B) : Port B := { port with
  wake := some wake }

/-- Connection `c` is open on the live port `p`. -/
structure OpenOn (core : PortCore P C B) (p : Fin P) (c : Fin C) : Prop where
  live : (core.ports p).live
  state : (core.connections c).state = .open
  port : (core.connections c).port = core.key p

/-- The event that ends a connection for its client. -/
inductive Terminal (conn : Connection) : PortEventRecord → Prop
  | disconnected {reason : UInt32} (state : conn.state = .serverClosed reason)
      (drained : conn.events.toList = []) :
      Terminal conn (terminalEvent .disconnected reason conn.closeSeq)
  | serverGone (state : conn.state = .serverGone) :
      Terminal conn (terminalEvent .serverGone 0 conn.closeSeq)

/-- A connection whose server has ended it. -/
def Connection.serverEnded (conn : Connection) : Prop :=
  (∃ reason, conn.state = .serverClosed reason) ∨ conn.state = .serverGone

/-- One change of the core: what the call that makes it shows, and the effects it owes. -/
inductive Move (core : PortCore P C B) : Observation → List (Effect B) → PortCore P C B → Prop
  | register {p : Fin P} {resource : ResourceRef} {rights : PortRights} {server : HolderId}
      {serverGeneration : UInt64} {params : PortParams}
      (dead : (core.ports p).live = false)
      (generation : (core.ports p).generation ≠ generationMax)
      (valid : params.validate = .ok ()) :
      Move core (.registered ⟨UInt8.ofNat p, (core.ports p).generation + 1⟩) []
        (core.setPort p ((core.ports p).registered resource rights server serverGeneration params))
  | connect {p : Fin P} {c : Fin C} {caller : Caller} {handle : CapabilityHandle}
      (live : (core.ports p).live)
      (free : (core.connections c).state = .free)
      (generation : (core.connections c).generation ≠ generationMax) :
      Move core (.connected ⟨UInt16.ofNat c, (core.connections c).generation + 1⟩) []
        (core.setConnection c ((core.connections c).opened (core.key p) caller handle))
  | enqueue {p : Fin P} {c : Fin C} {entry : Fin portMaxRequestQueueDepth} {request : Request}
      (on : OpenOn core p c)
      (capacity : overCapacity core p c request.transfer.isSome = false)
      (free : ((core.ports p).requests entry).isLive = false)
      (seq : request.seq = (core.ports p).nextSeq)
      (connection : request.connection = core.connectionId c) :
      Move core (.sent (core.connectionId c) request.message)
        ([.wakeServer (core.key p)] ++ signals (core.ports p).wake WakeBinding.requestBit)
        (ServicePort.enqueue core p c entry request)
  | deliver {p : Fin P} {entry : Fin portMaxRequestQueueDepth} (live : (core.ports p).live)
      (queued : ((core.ports p).requests entry).isLive)
      (least : ∀ other, ((core.ports p).requests other).isLive →
        ((core.ports p).requests entry).seq ≤ ((core.ports p).requests other).seq) :
      Move core (.received (core.key p) (requestRecord ((core.ports p).requests entry)))
        [.wakeSendSpace (core.key p)] (takeRequest core p entry)
  | takeNotice {p : Fin P} {c : Fin C} (live : (core.ports p).live)
      (notice : PortCore.notice (core.key p) (core.connections c)) :
      Move core (.received (core.key p) (noticeRecord core c)) [] (freeConnection core c)
  | post {p : Fin P} {c : Fin C} {frame : Frame} (on : OpenOn core p c)
      (room : (core.connections c).events.len < (core.ports p).params.eventDepth) :
      Move core (.posted (core.connectionId c) frame)
        [.wakeConnection (core.connectionId c)] (postEvent core p c frame)
  | takeEvent {c : Fin C} {event : QueuedEvent} {events : Ring QueuedEvent portMaxEventQueueDepth}
      (state : (core.connections c).state = .open ∨
        ∃ reason, (core.connections c).state = .serverClosed reason)
      (pop : (core.connections c).events.pop = some (event, events)) :
      Move core (.returned (core.connectionId c) (frameEvent event)) [] (setEvents core c events)
  | finish {c : Fin C} {record : PortEventRecord}
      (terminal : Terminal (core.connections c) record) :
      Move core (.returned (core.connectionId c) record)
        [.wakeConnection (core.connectionId c)] (freeConnection core c)
  | disconnect {p : Fin P} {c : Fin C} {reason : UInt32} (on : OpenOn core p c) :
      Move core (.disconnected (core.connectionId c))
        [.wakeConnection (core.connectionId c), .wakeSendSpace (core.key p)]
        (core.endConnection p c (.serverClosed reason) (core.connections c).events)
  | bind {p : Fin P} {wake : WakeBinding B} (live : (core.ports p).live) :
      Move core (.bound (core.key p))
        ((if (core.ports p).queuedRequests ≠ 0 then [.signal wake.target wake.requestBit] else []) ++
          (if (Slots.position (PortCore.notice (core.key p)) core.connections).isSome then
            [.signal wake.target wake.noticeBit] else []))
        (core.setPort p ((core.ports p).bind wake))
  | clientClose {p : Fin P} {c : Fin C} {kind : RecvKind} {reason : UInt32}
      (on : OpenOn core p c) (kind_ne : kind ≠ .request) :
      Move core .none (closeWakes core p c)
        (core.endConnection p c (.closePending kind reason) (core.connections c).events.clear)
  | discard {c : Fin C} (ended : (core.connections c).serverEnded) :
      Move core .none [.wakeConnection (core.connectionId c)] (freeConnection core c)
  | teardown {p : Fin P} {seqs : Fin C → Nat} {seq : Nat} {effects : List (Effect B)}
      (live : (core.ports p).live)
      (wakes : SeverWakes core (core.key p) C effects) :
      Move core .none (effects ++ [.wakeSendSpace (core.key p), .wakeServer (core.key p)])
        (core.tornDown p seqs seq)

/-- A chain of silent moves. -/
inductive Path (core : PortCore P C B) : Nat → List (Effect B) → PortCore P C B → Prop
  | refl : Path core 0 [] core
  | snoc {n : Nat} {effects more : List (Effect B)} {mid core' : PortCore P C B}
      (path : Path core n effects mid) (move : Move mid .none more core') :
      Path core (n + 1) (effects ++ more) core'

theorem Path.append {core mid core' : PortCore P C B} {n m : Nat}
    {effects more : List (Effect B)} (h : Path core n effects mid) (h' : Path mid m more core') :
    Path core (n + m) (effects ++ more) core' := by
  induction h' with
  | refl => rwa [List.append_nil]
  | snoc _ move ih =>
    rw [← List.append_assoc]
    exact ih.snoc move

/-- What one call does: a move it shows, or a chain of silent ones. -/
inductive Steps [DecidableEq B] (core : PortCore P C B) :
    Observation → List (Effect B) → PortCore P C B → Prop
  | move {obs : Observation} {effects : List (Effect B)} {core' : PortCore P C B}
      (move : Move core obs effects core') : Steps core obs (emitAll [] effects) core'
  | path {n : Nat} {effects : List (Effect B)} {core' : PortCore P C B} (short : n ≤ P + C)
      (path : Path core n effects core') : Steps core .none (emitAll [] effects) core'

end CleanSlate.ServicePort
