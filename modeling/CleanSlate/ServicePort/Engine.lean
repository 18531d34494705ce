import CleanSlate.ServicePort.Core

/-!
# The port state machine

The operations of `port/src/engine.rs`. A call works on the core, the capability table and the
effects it owes (`CallState`); each operation returns its result with the state it leaves, so that
the writes of a failing call (closing a connection whose capability was revoked, reclaiming revoked
slots) are part of the model. Loops over a pool are left folds over its slots.
-/

namespace CleanSlate.ServicePort

open Lib
open Capability

variable {P C N : Nat} {B : Type} [DecidableEq B]

/-- What one call can change. -/
structure CallState (P C N : Nat) (B : Type) where
  core : PortCore P C B
  table : CapabilityTable N
  effects : Effects B

namespace CallState

def push (state : CallState P C N B) (effect : Effect B) : CallState P C N B := { state with
  effects := state.effects.push effect }

/-- Sets `bit` of the binding on the server's work set, if one is bound. -/
def signal (state : CallState P C N B) (wake : Option (WakeBinding B))
    (bit : WakeBinding B → UInt32) : CallState P C N B :=
  match wake with
  | some wake => state.push (.signal wake.target (bit wake))
  | none => state

end CallState

open CallState

/-! ## Internals -/

/-- One entry of the purge loop. -/
def purgeEntry (id : ConnectionId) (p : Fin P) (state : CallState P C N B)
    (entry : Fin portMaxRequestQueueDepth) : CallState P C N B :=
  let port := state.core.ports p
  let request := port.requests entry
  if !request.isLive ∨ request.connection ≠ id then state
  else
    let requests := Function.update port.requests entry .empty
    match request.transfer with
    | some child =>
      let (table, effects) := releaseChild state.table child state.effects
      ⟨state.core.setPort p { port with
        requests := requests
        transfersInFlight := port.transfersInFlight - 1 }, table, effects⟩
    | none => { state with
      core := state.core.setPort p { port with
        requests := requests } }

variable (core : PortCore P C B) (state : CallState P C N B)

/-- Drops the connection's undelivered requests, revoking and releasing their children. -/
def purgeConnection (p : Fin P) (c : Fin C) : CallState P C N B :=
  let state := (List.finRange portMaxRequestQueueDepth).foldl
    (purgeEntry (state.core.connectionId c) p) state
  { state with
    core := state.core.setConnection c { state.core.connections c with
      outstanding := 0
      transfersInFlight := 0 } }

/-- `Open` → `ClosePending`: purge, discard events, notify the server. -/
def closePending (state : CallState P C N B) (c : Fin C) (kind : RecvKind) (reason : UInt32) :
    CallState P C N B :=
  match state.core.portIndex (state.core.connections c).port with
  | none => state
  | some p =>
    let state := purgeConnection state p c
    let port := state.core.ports p
    let conn := state.core.connections c
    let core := (state.core.setPort p port.advance).setConnection c { conn with
      events := conn.events.clear
      closeSeq := port.nextSeq
      state := .closePending kind reason }
    let key := core.key p
    let state := { state with
      core := core }
    let state := state.push (.wakeServer key)
    let state := state.signal port.wake WakeBinding.noticeBit
    let state := state.push (.wakeSendSpace key)
    state.push (.wakeConnection (core.connectionId c))

/-- Re-authorises the client's connect capability; a revoked one closes the connection. -/
def reauthorizeClient (c : Fin C) (p : Fin P) : Except PortError UInt32 × CallState P C N B :=
  let conn := state.core.connections c
  let port := state.core.ports p
  match state.table.authorize conn.client conn.clientCap port.resource port.rights.connect with
  | .ok record => (.ok record.rights.bits, state)
  | .error error =>
    if error = .revoked ∨ error = .staleHandle then
      (.error .stale, closePending state c .clientRevoked 0)
    else (.error .denied, state)

def freeConnection (c : Fin C) : PortCore P C B := core.setConnection c (core.connections c).release

/-- The client consumed a terminal state (or closed or exited after it): free the slot and wake
any other waiter on it so it sees `ESTALE`. -/
def consumeTerminal (c : Fin C) : CallState P C N B :=
  let id := state.core.connectionId c
  let state := { state with
    core := freeConnection state.core c }
  state.push (.wakeConnection id)

/-- One entry of the teardown's request loop. -/
def teardownEntry (p : Fin P) (state : CallState P C N B)
    (entry : Fin portMaxRequestQueueDepth) : CallState P C N B :=
  let port := state.core.ports p
  let request := port.requests entry
  let core := state.core.setPort p { port with
    requests := Function.update port.requests entry .empty }
  match request.transfer with
  | some child =>
    if request.isLive then
      let (table, effects) := releaseChild state.table child state.effects
      ⟨core, table, effects⟩
    else { state with
      core := core }
  | none => { state with
    core := core }

/-- One connection of the teardown: bound connections lose their server. -/
def teardownConnection (key : PortKey) (p : Fin P) (state : CallState P C N B) (c : Fin C) :
    CallState P C N B :=
  let conn := state.core.connections c
  if conn.state = .free ∨ conn.port ≠ key then state
  else match conn.state with
    | .open | .serverClosed _ =>
      let port := state.core.ports p
      let core := (state.core.setPort p port.advance).setConnection c { conn with
        events := conn.events.clear
        outstanding := 0
        transfersInFlight := 0
        closeSeq := port.nextSeq
        state := .serverGone }
      { state with
        core := core }.push (.wakeConnection (core.connectionId c))
    | .closePending _ _ => { state with
      core := freeConnection state.core c }
    | .free | .serverGone => state

def teardownPort (p : Fin P) : CallState P C N B :=
  let key := state.core.key p
  let state := (List.finRange portMaxRequestQueueDepth).foldl (teardownEntry p) state
  let state := { state with
    core := state.core.setPort p { state.core.ports p with
      transfersInFlight := 0 } }
  let state := (List.finRange C).foldl (teardownConnection key p) state
  let state := (state.push (.wakeSendSpace key)).push (.wakeServer key)
  { state with
    core := state.core.setPort p { state.core.ports p with
      live := false
      wake := none
      server := .kernel
      serverGeneration := 0 } }

def noticeRecord (c : Fin C) : PortRecvRecord :=
  let conn := core.connections c
  let (kind, reason) := match conn.state with
    | .closePending kind reason => (kind, reason)
    | _ => (.clientExited, 0)
  { kind, reason
    envelope :=
      { connection := core.connectionId c, pid := conn.client.raw, domain := conn.clientDomain
        instanceGeneration := conn.clientGeneration, kernelSeq := conn.closeSeq, rights := 0
        transfer := none }
    frame := zeroFrame }

def frameEvent (event : QueuedEvent) : PortEventRecord := ⟨.frame, 0, event.seq, event.frame⟩

def terminalEvent (kind : EventKind) (reason : UInt32) (seq : Nat) : PortEventRecord :=
  ⟨kind, reason, seq, zeroFrame⟩

/-! ## Registration (launch policy only) -/

def register (resource : ResourceRef) (server : HolderId)
    (serverGeneration : UInt64) (params : PortParams) :
    Except RegistrationError PortKey × PortCore P C B :=
  match portRightsFor resource.class with
  | none => (.error .classHasNoPort, core)
  | some rights =>
    match params.validate with
    | .error error => (.error (.params error), core)
    | .ok () =>
      if (core.portFor resource.class resource.id).isSome then (.error .alreadyRegistered, core)
      else match Slots.position (fun port : Port B =>
          !port.live ∧ port.generation ≠ generationMax) core.ports with
        | none => (.error .registryFull, core)
        | some p =>
          if server = .kernel ∨ serverGeneration = 0 then (.error .serverNotLive, core)
          else
            let core := core.setPort p { core.ports p with
              generation := (core.ports p).generation + 1
              live := true
              resource := resource
              rights := rights
              server := server
              serverGeneration := serverGeneration
              params := params
              nextSeq := 1
              transfersInFlight := 0
              wake := none }
            (.ok (core.key p), core)

/-- Launch rollback, and server teardown: `ServerGone` for every connection. -/
def unregister (key : PortKey) : Bool × CallState P C N B :=
  match state.core.portIndex key with
  | some p => (true, teardownPort state p)
  | none => (false, state)

/-! ## Client operations -/

/-- The slot a CONNECT takes, with the port it binds to: every check in the source's order. -/
def connectTarget (table : CapabilityTable N) (caller : Caller)
    (handle : UInt64) (resourceClass : UInt64) (id : UInt64) :
    Except PortError (Fin P × Fin C × CapabilityHandle) :=
  match decodeClass resourceClass with
  | .error error => .error error
  | .ok (resourceClass, rights) =>
    if !caller.isProcess then .error .denied
    else match CapabilityHandle.decode handle with
      | .error _ => .error .invalid
      | .ok handle =>
        match table.record handle with
        | .error error => .error (capabilityError error)
        | .ok record =>
          match core.portFor resourceClass id with
          | none => .error .refused
          | some p =>
            if record.resource.class ≠ resourceClass ∨ record.resource.id ≠ id then .error .denied
            else if record.resource.instanceGeneration ≠
                (core.ports p).resource.instanceGeneration then
              .error .stale
            else match table.authorize caller.holder handle (core.ports p).resource
                rights.connect with
              | .error error => .error (capabilityError error)
              | .ok _ =>
                let key := core.key p
                let perHolder := Slots.count (fun conn =>
                  PortCore.bound key conn && decide (conn.client = caller.holder))
                  core.connections
                if perHolder ≥ (core.ports p).params.maxConnectionsPerHolder then .error .noSpace
                else if Slots.count (PortCore.bound key) core.connections ≥
                    (core.ports p).params.maxConnections then
                  .error .noSpace
                else match Slots.position (fun conn : Connection =>
                    conn.state = .free ∧ conn.generation ≠ generationMax) core.connections with
                  | none => .error .noSpace
                  | some c => .ok (p, c, handle)

/-- The connection a CONNECT opens. -/
def Connection.opened (conn : Connection) (key : PortKey) (caller : Caller)
    (handle : CapabilityHandle) : Connection := { conn with
  generation := conn.generation + 1
  state := .open
  port := key
  client := caller.holder
  clientGeneration := caller.generation
  clientDomain := caller.domain
  clientCap := handle
  outstanding := 0
  transfersInFlight := 0
  closeSeq := 0
  events := conn.events.clear }

def connect (table : CapabilityTable N) (caller : Caller)
    (handle : UInt64) (resourceClass : UInt64) (id : UInt64) :
    Except PortError ConnectionId × PortCore P C B :=
  match connectTarget core table caller handle resourceClass id with
  | .error error => (.error error, core)
  | .ok (p, c, handle) =>
    let core := core.setConnection c ((core.connections c).opened (core.key p) caller handle)
    (.ok (core.connectionId c), core)

/-- The capacity checks of SEND before it looks for a free entry. -/
def overCapacity (p : Fin P) (c : Fin C) (carries : Bool) : Bool :=
  let conn := core.connections c
  let port := core.ports p
  conn.outstanding ≥ port.params.maxOutstanding ∨ port.queuedRequests ≥ port.params.requestDepth ∨
    (carries ∧ (conn.transfersInFlight ≥ portMaxTransfersInFlightPerConnection ∨
      port.transfersInFlight ≥ portMaxTransfersInFlight))

/-- The writes of an accepted SEND. -/
def enqueue (p : Fin P) (c : Fin C)
    (entry : Fin portMaxRequestQueueDepth) (request : Request) : PortCore P C B :=
  let port := core.ports p
  let conn := core.connections c
  let carried := if request.transfer.isSome then 1 else 0
  (core.setPort p { port.advance with
    requests := Function.update port.requests entry request
    transfersInFlight := port.transfersInFlight + carried }).setConnection c { conn with
    outstanding := conn.outstanding + 1
    transfersInFlight := conn.transfersInFlight + carried }

/-- The validation and installation of a transfer, if SEND carries one. -/
def sendChild (table : CapabilityTable N) (sender server : HolderId) (transfer : Option Transfer) :
    Except PortError (Option TransferredCap) × CapabilityTable N :=
  match transfer with
  | none => (.ok none, table)
  | some transfer =>
    match validate table sender transfer with
    | .error error => (.error error, table)
    | .ok validated =>
      match installChild table server validated with
      | (.error error, table) => (.error error, table)
      | (.ok child, table) => (.ok (some child), table)

/-- SEND after the client was found, its connection is open and its port is live. -/
def sendOn (caller : Caller) (p : Fin P) (c : Fin C) (frame : Frame)
    (transfer : Option Transfer) : Except PortError Unit × CallState P C N B :=
  match reauthorizeClient state c p with
  | (.error error, state) => (.error error, state)
  | (.ok rights, state) =>
    if overCapacity state.core p c transfer.isSome then (.error .wouldBlock, state)
    else match Slots.position (fun request : Request => !request.isLive)
        (state.core.ports p).requests with
      | none => (.error .wouldBlock, state)
      | some entry =>
        match sendChild state.table caller.holder (state.core.ports p).server transfer with
        | (.error error, table) => (.error error, { state with
            table := table })
        | (.ok child, table) =>
          let key := state.core.key p
          let wake := (state.core.ports p).wake
          let request : Request :=
            { seq := (state.core.ports p).nextSeq, connection := state.core.connectionId c
              pid := caller.holder.raw, domain := caller.domain, generation := caller.generation
              rights := rights, transfer := child, frame := frame }
          let state : CallState P C N B :=
            ⟨enqueue state.core p c entry request, table, state.effects⟩
          let state := state.push (.wakeServer key)
          (.ok (), state.signal wake WakeBinding.requestBit)

def send (caller : Caller) (connection : UInt64) (frame : Frame)
    (transfer : Option Transfer) : Except PortError Unit × CallState P C N B :=
  match state.core.clientConnection caller connection with
  | .error error => (.error error, state)
  | .ok c =>
    match (state.core.connections c).state with
    | .serverClosed _ => (.error .peerClosed, state)
    | .free | .closePending _ _ | .serverGone => (.error .stale, state)
    | .open =>
      match state.core.connectionPort c with
      | .error error => (.error error, state)
      | .ok p => sendOn state caller p c frame transfer

/-- The queue of a connection after one event was taken. -/
def setEvents (c : Fin C) (events : Ring QueuedEvent portMaxEventQueueDepth) : PortCore P C B :=
  core.setConnection c { core.connections c with
    events := events }

def recvEvent (caller : Caller) (connection : UInt64) :
    Except PortError PortEventRecord × CallState P C N B :=
  match state.core.clientConnection caller connection with
  | .error error => (.error error, state)
  | .ok c =>
    let conn := state.core.connections c
    match conn.state with
    | .open =>
      match conn.events.pop with
      | some (event, events) => (.ok (frameEvent event), { state with
          core := setEvents state.core c events })
      | none =>
        match state.core.connectionPort c with
        | .error error => (.error error, state)
        | .ok p =>
          match reauthorizeClient state c p with
          | (.error error, state) => (.error error, state)
          | (.ok _, state) => (.error .wouldBlock, state)
    | .serverClosed reason =>
      match conn.events.pop with
      | some (event, events) => (.ok (frameEvent event), { state with
          core := setEvents state.core c events })
      | none =>
        (.ok (terminalEvent .disconnected reason conn.closeSeq), consumeTerminal state c)
    | .serverGone => (.ok (terminalEvent .serverGone 0 conn.closeSeq), consumeTerminal state c)
    | .free | .closePending _ _ => (.error .stale, state)

def close (caller : Caller) (connection : UInt64) (reason : UInt32) :
    Except PortError Unit × CallState P C N B :=
  match state.core.clientConnection caller connection with
  | .error error => (.error error, state)
  | .ok c =>
    match (state.core.connections c).state with
    | .open => (.ok (), closePending state c .clientClosed reason)
    | .serverClosed _ | .serverGone => (.ok (), consumeTerminal state c)
    | .free | .closePending _ _ => (.error .stale, state)

/-! ## Server operations -/

/-- The writes of a delivered request: its entry is freed and its connection's counts drop. -/
def takeRequest (p : Fin P) (entry : Fin portMaxRequestQueueDepth) : PortCore P C B :=
  let port := core.ports p
  let request := port.requests entry
  let carried := if request.transfer.isSome then 1 else 0
  let core := core.setPort p { port with
    requests := Function.update port.requests entry .empty
    transfersInFlight := port.transfersInFlight - carried }
  if h : request.connection.slot.toNat < C then
    let c : Fin C := ⟨request.connection.slot.toNat, h⟩
    let conn := core.connections c
    if conn.generation = request.connection.generation then
      core.setConnection c { conn with
        outstanding := conn.outstanding - 1
        transfersInFlight := conn.transfersInFlight - carried }
    else core
  else core

def requestRecord (request : Request) : PortRecvRecord where
  kind := .request
  reason := 0
  envelope :=
    { connection := request.connection, pid := request.pid, domain := request.domain
      instanceGeneration := request.generation, kernelSeq := request.seq, rights := request.rights
      transfer := request.transfer }
  frame := request.frame

/-- The oldest notice wins over requests; otherwise the lowest-`seq` request. -/
def recv (caller : Caller) (serve : UInt64) : Except PortError PortRecvRecord × CallState P C N B :=
  match state.core.authorizeServe state.table caller serve with
  | .error error => (.error error, state)
  | .ok p =>
    let key := state.core.key p
    match Slots.minBy (fun c => (state.core.connections c).closeSeq)
        (fun c => PortCore.notice key (state.core.connections c)) with
    | some c => (.ok (noticeRecord state.core c), { state with
        core := freeConnection state.core c })
    | none =>
      match Slots.minBy (fun entry => ((state.core.ports p).requests entry).seq)
          (fun entry => ((state.core.ports p).requests entry).isLive) with
      | none => (.error .wouldBlock, state)
      | some entry =>
        let request := (state.core.ports p).requests entry
        let state := { state with
          core := takeRequest state.core p entry }
        (.ok (requestRecord request), state.push (.wakeSendSpace key))

/-- The writes of an accepted POST. -/
def postEvent (p : Fin P) (c : Fin C) (frame : Frame) : PortCore P C B :=
  let port := core.ports p
  let conn := core.connections c
  (core.setPort p port.advance).setConnection c { conn with
    events := conn.events.push ⟨port.nextSeq, frame⟩ }

def post (caller : Caller) (serve connection : UInt64)
    (frame : Frame) : Except PortError Unit × CallState P C N B :=
  match state.core.authorizeServe state.table caller serve with
  | .error error => (.error error, state)
  | .ok p =>
    match state.core.servedConnection p connection with
    | .error error => (.error error, state)
    | .ok c =>
      match (state.core.connections c).state with
      | .closePending _ _ => (.error .peerClosed, state)
      | .free | .serverClosed _ | .serverGone => (.error .stale, state)
      | .open =>
        if (state.core.connections c).events.len ≥ (state.core.ports p).params.eventDepth then
          (.error .wouldBlock, state)
        else
          let core := postEvent state.core p c frame
          (.ok (), { state with
            core := core }.push (.wakeConnection (core.connectionId c)))

def disconnect (caller : Caller) (serve connection : UInt64)
    (reason : UInt32) : Except PortError Unit × CallState P C N B :=
  match state.core.authorizeServe state.table caller serve with
  | .error error => (.error error, state)
  | .ok p =>
    match state.core.servedConnection p connection with
    | .error error => (.error error, state)
    | .ok c =>
      match (state.core.connections c).state with
      | .closePending _ _ => (.error .peerClosed, state)
      | .free | .serverClosed _ | .serverGone => (.error .stale, state)
      | .open =>
        let state := purgeConnection state p c
        let port := state.core.ports p
        let core := (state.core.setPort p port.advance).setConnection c
          { state.core.connections c with
            closeSeq := port.nextSeq
            state := .serverClosed reason }
        let state := { state with
          core := core }
        let state := state.push (.wakeConnection (core.connectionId c))
        (.ok (), state.push (.wakeSendSpace (core.key p)))

/-- Replaces any earlier binding and signals at once for each source already pending. -/
def bindWake (caller : Caller) (serve : UInt64) (target : B)
    (requestBit noticeBit : UInt32) : Except PortError Unit × CallState P C N B :=
  if requestBit ≥ workSetBits ∨ noticeBit ≥ workSetBits then (.error .invalid, state)
  else match state.core.authorizeServe state.table caller serve with
    | .error error => (.error error, state)
    | .ok p =>
      let state := { state with
        core := state.core.setPort p { state.core.ports p with
          wake := some ⟨target, requestBit, noticeBit⟩ } }
      let state := if (state.core.ports p).queuedRequests ≠ 0 then
        state.push (.signal target requestBit) else state
      let key := state.core.key p
      let state := if (Slots.position (PortCore.notice key) state.core.connections).isSome then
        state.push (.signal target noticeBit) else state
      (.ok (), state)

/-! ## Teardown and accounting -/

/-- What `on_holder_exit` released. -/
structure PortReleaseCounts where
  servedPorts : Nat
  clientConnections : Nat
  deriving DecidableEq, Repr

variable (holder : HolderId) (generation : UInt64) (s : PortReleaseCounts × CallState P C N B)

/-- One port of a holder's exit. -/
def exitPort (p : Fin P) : PortReleaseCounts × CallState P C N B :=
  let (counts, state) := s
  let port := state.core.ports p
  if port.live ∧ port.server = holder ∧ port.serverGeneration = generation then
    ({ counts with
      servedPorts := counts.servedPorts + 1 }, teardownPort state p)
  else (counts, state)

/-- One connection of a holder's exit. -/
def exitConnection (c : Fin C) : PortReleaseCounts × CallState P C N B :=
  let (counts, state) := s
  let conn := state.core.connections c
  if conn.client ≠ holder ∨ conn.clientGeneration ≠ generation then (counts, state)
  else match conn.state with
    | .open => ({ counts with
        clientConnections := counts.clientConnections + 1 },
        closePending state c .clientExited 0)
    | .serverClosed _ | .serverGone => ({ counts with
        clientConnections := counts.clientConnections + 1 }, consumeTerminal state c)
    | .free | .closePending _ _ => (counts, state)

/-- Ports served by `holder` go away (`ServerGone`), then its client connections become exit
notices or are freed. -/
def onHolderExit : PortReleaseCounts × CallState P C N B :=
  let s := (List.finRange P).foldl (exitPort holder generation) (⟨0, 0⟩, state)
  (List.finRange C).foldl (exitConnection holder generation) s

/-- Whether `RECV_EVENT` on `connection` would complete without blocking. -/
def eventReady (connection : UInt64) : Bool :=
  match core.connectionIndex connection with
  | .ok c => (core.connections c).state ≠ .open ∨ (core.connections c).events.len ≠ 0
  | .error _ => true

structure PortCounts where
  ports : Nat
  connections : Nat
  queuedRequests : Nat
  queuedEvents : Nat
  undeliveredTransfers : Nat
  deriving DecidableEq, Repr

/-- A queued request that carries a capability. -/
def Request.carries (self : Request) : Bool := self.isLive && self.transfer.isSome

def globalCounts : PortCounts where
  ports := Slots.count Port.live core.ports
  connections := Slots.count (fun conn : Connection => conn.state ≠ .free) core.connections
  queuedRequests := ((List.finRange P).map fun p =>
    if (core.ports p).live then (core.ports p).queuedRequests else 0).sum
  queuedEvents := ((List.finRange C).map fun c => (core.connections c).events.len).sum
  undeliveredTransfers := ((List.finRange P).map fun p =>
    if (core.ports p).live then Slots.count Request.carries (core.ports p).requests else 0).sum

/-! ## The engine's own checker -/

/-- What `check_invariants` reports. -/
inductive Violation where
  | deadPortHoldsRequests (port : Nat)
  | requestPoolOverDepth (port : Nat)
  | portInFlight (port transfers : Nat)
  | holdsRequests (connection : Nat) (state : ConnState)
  | outstandingMismatch (connection : Nat)
  | inFlightMismatch (connection : Nat)
  | overItsLimits (connection : Nat)
  | boundToDeadPort (connection : Nat)
  deriving DecidableEq, Repr

def checkPort (p : Fin P) : Except Violation Unit :=
  let port := core.ports p
  if !port.live then
    if (Slots.position Request.isLive port.requests).isSome then .error (.deadPortHoldsRequests p)
    else .ok ()
  else if port.queuedRequests > port.params.requestDepth then .error (.requestPoolOverDepth p)
  else
    let transfers := Slots.count Request.carries port.requests
    if transfers ≠ port.transfersInFlight ∨ transfers > portMaxTransfersInFlight then
      .error (.portInFlight p transfers)
    else .ok ()

/-- The queued requests of a connection, over every port, that satisfy `p`. -/
def queuedBy (id : ConnectionId) (p : Request → Bool) : Nat :=
  ((List.finRange P).map fun i => Slots.count (fun request =>
    request.isLive && decide (request.connection = id) && p request)
    (core.ports i).requests).sum

def checkConnection (c : Fin C) : Except Violation Unit :=
  let conn := core.connections c
  if conn.state = .free then .ok ()
  else
    let id := core.connectionId c
    let requests := queuedBy core id fun _ => true
    let transfers := queuedBy core id fun request => request.transfer.isSome
    if requests ≠ 0 ∧ conn.state ≠ .open then .error (.holdsRequests c conn.state)
    else if requests ≠ conn.outstanding then .error (.outstandingMismatch c)
    else if transfers ≠ conn.transfersInFlight ∨
        transfers > portMaxTransfersInFlightPerConnection then
      .error (.inFlightMismatch c)
    else match core.portIndex conn.port with
      | some p =>
        if conn.outstanding > (core.ports p).params.maxOutstanding ∨
            conn.events.len > (core.ports p).params.eventDepth then
          .error (.overItsLimits c)
        else .ok ()
      | none => if conn.state ≠ .serverGone then .error (.boundToDeadPort c) else .ok ()

/-- Structural invariants the engine's property test checks after every operation. -/
def checkInvariants : Except Violation Unit :=
  match (List.finRange P).forM (checkPort core) with
  | .error violation => .error violation
  | .ok () => (List.finRange C).forM (checkConnection core)

end CleanSlate.ServicePort
