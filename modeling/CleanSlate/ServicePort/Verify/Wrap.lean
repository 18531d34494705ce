import CleanSlate.ServicePort.Verify.Steps

/-!
# The sequence counter wraps

A session of one client and one server in which the client sends and the server receives, over and
over: every round leaves the system as it was, but for the counter of the port. So every value of
the counter is reached, the last one before it wraps included.
-/

namespace CleanSlate.ServicePort

open Lib Function PortCore Slots
open Capability

def soleServer : Caller := ⟨⟨1⟩, 1, 0⟩

def soleClient : Caller := ⟨⟨2⟩, 1, 0⟩

/-- The server's capability. -/
def soleServe : UInt64 := CapabilityHandle.encode ⟨0, 1⟩

/-- The client's connection. -/
def soleConnection : UInt64 := SlotGenerationId.encode ⟨0, 1⟩

/-- A port with room for two requests and two events, and one connection to it. -/
def openSession : List (PortOp Unit) := [.table (.grant ⟨1⟩ (.graphics 7 1) .gfxServe (.root ⟨1⟩)),
    .table (.grant ⟨2⟩ (.graphics 7 1) .gfxConnect (.root ⟨2⟩)),
    .register (.graphics 7 1) ⟨1⟩ 1 ⟨2, 2, 1, 2, 1⟩,
    .connect soleClient (CapabilityHandle.encode ⟨1, 1⟩) ResourceClass.graphics.asU8.toUInt64 7]

/-- A fresh core and an empty table. -/
def soleStart : PortSystem 1 1 2 Unit := ⟨⟨fun _ => .empty, fun _ => .empty⟩, .new⟩

theorem soleStart_new : PortCore.new = some soleStart.core := by
  rfl

def soleState : PortSystem 1 1 2 Unit := run portStep soleStart openSession

/-- The session with the counter of its port at `seq`. -/
def spinning (seq : Nat) : PortSystem 1 1 2 Unit where
  core := ⟨fun p => { soleState.core.ports p with
    nextSeq := seq }, soleState.core.connections⟩
  table := soleState.table

theorem spinning_one : spinning 1 = soleState := by
  have hnx : (soleState.core.ports 0).nextSeq = 1 := by decide
  have hpr : (spinning 1).core.ports = soleState.core.ports := by
    funext p
    rw [Subsingleton.elim p 0]
    exact congrArg (fun seq => { soleState.core.ports 0 with nextSeq := seq }) hnx.symm
  calc spinning 1 = ⟨⟨(spinning 1).core.ports, soleState.core.connections⟩, soleState.table⟩ := rfl
    _ = soleState := by rw [hpr]

/-- A round: the client sends, the server receives. -/
def round : List (PortOp Unit) :=
  [.send soleClient soleConnection zeroFrame none, .recv soleServer soleServe]

/-- A session in which the client sends twice and the server has received once. -/
def pendingSession : List (PortOp Unit) :=
  openSession ++ round ++ [.send soleClient soleConnection zeroFrame none]

section Round
variable (seq : Nat)

theorem spinning_openOn : OpenOn (spinning seq).core 0 0 := by
  have h : (soleState.core.connections 0).port = soleState.core.key 0 := by decide
  exact ⟨(by decide : (soleState.core.ports 0).live),
    (by decide : (soleState.core.connections 0).state = .open), h⟩

theorem spinning_reauthorize : reauthorizeClient (spinning seq).call 0 0 =
    (.ok (soleState.table.slots 1).rights.bits, (spinning seq).call) := by
  have h : (spinning seq).call.table.authorize ((spinning seq).call.core.connections 0).client
      ((spinning seq).call.core.connections 0).clientCap
      ((spinning seq).call.core.ports 0).resource
      ((spinning seq).call.core.ports 0).rights.connect = .ok (soleState.table.slots 1) :=
    (by decide : soleState.table.authorize (soleState.core.connections 0).client
      (soleState.core.connections 0).clientCap (soleState.core.ports 0).resource
      (soleState.core.ports 0).rights.connect = _)
  unfold reauthorizeClient
  dsimp only
  rw [h]

/-- The request of a round. -/
def spinRequest : Request :=
  sentRequest (spinning seq).core soleClient 0 0 zeroFrame (soleState.table.slots 1).rights.bits none

/-- The core between the two calls of a round. -/
def spun : PortCore 1 1 Unit := enqueue (spinning seq).core 0 0 0 (spinRequest seq)

theorem spinning_send :
    (portStep (spinning seq) (.send soleClient soleConnection zeroFrame none)).2 =
      ⟨spun seq, soleState.table⟩ := by
  have hon := spinning_openOn seq
  have hcl : (spinning seq).call.core.clientConnection soleClient soleConnection = .ok 0 :=
    (by decide : soleState.core.clientConnection soleClient soleConnection = .ok 0)
  have hop : ((spinning seq).call.core.connections 0).state = .open := hon.state
  have hpr : (spinning seq).call.core.connectionPort 0 = .ok 0 :=
    (connectionPort_ok (by decide)).2 ⟨hon.live, hon.port⟩
  have hcap : overCapacity (spinning seq).call.core 0 0 false = false :=
    (by decide : overCapacity soleState.core 0 0 false = false)
  have hen : position (fun request => !request.isLive)
      ((spinning seq).call.core.ports 0).requests = some 0 :=
    (by decide : position (fun request => !request.isLive) (soleState.core.ports 0).requests = _)
  simp only [portStep, CallState.return]
  unfold send
  rw [hcl]
  dsimp only
  rw [hop, hpr]
  dsimp only
  unfold sendOn
  rw [spinning_reauthorize]
  dsimp only [Option.isSome_none]
  rw [if_neg (by rw [hcap]; simp), hen]
  dsimp only [sendChild]
  rw [CallState.signal_core, CallState.signal_table]
  rfl

theorem spun_requests (entry : Fin portMaxRequestQueueDepth) :
    ((spun seq).ports 0).requests entry = if entry = 0 then spinRequest seq else .empty := by
  change update ((spinning seq).core.ports 0).requests 0 (spinRequest seq) entry = _
  rw [update_apply]
  rfl

/-- Delivering the request leaves the session as it was before the SEND, but for the counter. -/
theorem takeRequest_spun : takeRequest (spun seq) 0 0 = (spinning (seqAfter seq)).core := by
  have hgen : ((spinning seq).core.connections 0).generation ≠ 0 :=
    (by decide : (soleState.core.connections 0).generation ≠ 0)
  obtain ⟨hlt, hc⟩ := connectionId_index (spinning seq).core (by decide) hgen
  have hback : update ((spinning seq).core.ports 0).requests 0 .empty =
      ((spinning seq).core.ports 0).requests := update_eq_self 0 _
  have hid : (spinRequest seq).connection = (spinning seq).core.connectionId 0 := rfl
  unfold takeRequest spun enqueue
  simp only [setConnection_ports, setPort_ports, update_self, hid, dif_pos hlt, hc,
    setPort_connections, setConnection_connections,
    connectionId_generation (spinning seq).core hgen, if_true, setConnection_setPort,
    setPort_setPort, setConnection_setConnection, update_idem, hback, Nat.add_sub_cancel]
  refine (((spinning seq).core.setPort 0 _).setConnection_self 0).trans ?_
  refine congrArg (fun ports => PortCore.mk ports soleState.core.connections) (funext fun p => ?_)
  rw [Subsingleton.elim p 0]
  rfl

variable {seq} (hseq : seq ≠ 0)

include hseq in
theorem spun_recv : (portStep ⟨spun seq, soleState.table⟩ (.recv soleServer soleServe)).2 =
    spinning (seqAfter seq) := by
  have hsr : (spun seq).authorizeServe soleState.table soleServer soleServe = .ok 0 := by
    have h : soleState.core.authorizeServe soleState.table soleServer soleServe = .ok 0 := by decide
    refine Eq.trans ?_ h
    apply authorizeServe_congr <;> intro p <;> rw [Subsingleton.elim p 0] <;> rfl
  have hnt : minBy (fun c => ((spun seq).connections c).closeSeq)
      (fun c => PortCore.notice ((spun seq).key 0) ((spun seq).connections c)) = none := by
    have hst : ((spun seq).connections 0).state = .open := (spinning_openOn seq).state
    have hno : ∀ c ∈ List.finRange 1,
        ¬PortCore.notice ((spun seq).key 0) ((spun seq).connections c) := by
      intro c _
      rw [Subsingleton.elim c 0]
      simp [PortCore.notice, hst, ConnState.isClosePending]
    rw [minBy_eq_argmin, List.filter_eq_nil_iff.2 hno, List.argmin_nil]
  have hen : minBy (fun entry => (((spun seq).ports 0).requests entry).seq)
      (fun entry => (((spun seq).ports 0).requests entry).isLive) = some 0 := by
    have hlv : (fun entry => (((spun seq).ports 0).requests entry).isLive) =
        fun entry => decide (entry = 0) := by
      funext entry
      rw [spun_requests]
      by_cases he : entry = 0
      · simp [he, Request.isLive, spinRequest, sentRequest, spinning, hseq]
      · simp [he]
    have hft : (List.finRange portMaxRequestQueueDepth).filter (fun entry => decide (entry = 0)) =
        [0] := by decide
    rw [hlv, minBy_eq_argmin, hft, List.argmin_singleton]
  simp only [portStep, CallState.return]
  unfold recv
  dsimp only [PortSystem.call]
  rw [hsr]
  dsimp only
  rw [hnt, hen]
  change (⟨takeRequest (spun seq) 0 0, soleState.table⟩ : PortSystem 1 1 2 Unit) = _
  rw [takeRequest_spun]
  rfl

include hseq in
/-- A round advances the counter and nothing else. -/
theorem spinning_round : run portStep (spinning seq) round = spinning (seqAfter seq) := by
  unfold round
  simp only [run, spinning_send]
  exact spun_recv hseq

end Round

/-- Rounds reach every value of the counter up to the last one. -/
theorem spinning_reached {n : Nat} (h : n + 1 < 2 ^ 64) :
    ∃ ops, run portStep soleStart ops = spinning (n + 1) := by
  induction n with
  | zero => exact ⟨openSession, spinning_one.symm⟩
  | succ n ih =>
    obtain ⟨ops, hops⟩ := ih (by omega)
    refine ⟨ops ++ round, ?_⟩
    rw [run_append, hops, spinning_round (Nat.succ_ne_zero n)]
    have hsc : seqAfter (n + 1) = n + 1 + 1 := by
      unfold seqAfter
      omega
    rw [hsc]

end CleanSlate.ServicePort
