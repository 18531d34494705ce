import CleanSlate.ServicePort.Verify.Keys

/-!
# What the loops of the engine do to the core

`purge_connection`, `close_pending` and `teardown_port` walk the request pool and the connections
of a port. Each is given here as one equation: the port and the connections it leaves, and the
effects it adds to those already owed.
-/

namespace CleanSlate.ServicePort

open Lib Function PortCore List Slots Connection
open Capability

variable {P C N : Nat} {B : Type} [DecidableEq B]

/-! ## Owed effects -/

/-- The owed effects after one more is pushed. -/
def emit (items : List (Effect B)) (effect : Effect B) : List (Effect B) :=
  if effect ∈ items then items
  else if items.length < effectsCapacity then items ++ [effect] else items

def emitAll (items : List (Effect B)) (effects : List (Effect B)) : List (Effect B) :=
  effects.foldl emit items

theorem emitAll_append (items effects more : List (Effect B)) :
    emitAll items (effects ++ more) = emitAll (emitAll items effects) more :=
  foldl_append

theorem Effects.push_items (effects : Effects B) (effect : Effect B) :
    (effects.push effect).items = emit effects.items effect := by
  unfold Effects.push emit
  split
  · rfl
  · split <;> rfl

omit [DecidableEq B] in
theorem releaseChild_items (table : CapabilityTable N) (child : TransferredCap)
    (effects : Effects B) : (releaseChild table child effects).2.items = effects.items := by
  unfold releaseChild
  split
  · rfl
  · split
    · rfl
    · unfold Effects.noteRevoked
      split
      · rfl
      · split <;> rfl

/-- The signal a binding asks for. -/
def signals (wake : Option (WakeBinding B)) (bit : WakeBinding B → UInt32) : List (Effect B) :=
  match wake with
  | some wake => [.signal wake.target (bit wake)]
  | none => []

namespace CallState

variable (state : CallState P C N B)

@[simp] theorem push_core (effect : Effect B) : (state.push effect).core = state.core := rfl

@[simp] theorem push_table (effect : Effect B) : (state.push effect).table = state.table := rfl

theorem push_items (effect : Effect B) :
    (state.push effect).effects.items = emit state.effects.items effect :=
  Effects.push_items ..

section

variable (wake : Option (WakeBinding B)) (bit : WakeBinding B → UInt32)

@[simp] theorem signal_core : (state.signal wake bit).core = state.core := by
  cases wake <;> rfl

@[simp] theorem signal_table : (state.signal wake bit).table = state.table := by
  cases wake <;> rfl

theorem signal_items :
    (state.signal wake bit).effects.items = emitAll state.effects.items (signals wake bit) := by
  cases wake with
  | none => rfl
  | some wake => exact push_items ..

end

theorem ite_push_core (b : Prop) [Decidable b] (effect : Effect B) :
    (if b then state.push effect else state).core = state.core := by
  split <;> rfl

theorem ite_push_items (b : Prop) [Decidable b] (effect : Effect B) :
    (if b then state.push effect else state).effects.items =
      emitAll state.effects.items (if b then [effect] else []) := by
  split
  · exact push_items ..
  · rfl

end CallState

/-! ## Purging a connection -/

/-- Queued for the connection `id`. -/
def Request.heldBy (id : ConnectionId) (self : Request) : Bool :=
  self.isLive && decide (self.connection = id)

/-- Queued for the connection `id` with a capability. -/
def Request.carriedBy (id : ConnectionId) (self : Request) : Bool :=
  self.heldBy id && self.transfer.isSome

/-- The port without the queued requests of the connection `id`. -/
def Port.purged (port : Port B) (id : ConnectionId) : Port B := { port with
  requests := fun entry =>
    if (port.requests entry).heldBy id then .empty else port.requests entry
  transfersInFlight := port.transfersInFlight - Slots.count (Request.carriedBy id) port.requests }

/-- One entry of the purge loop, on the port alone. -/
def Port.purgeEntry (id : ConnectionId) (port : Port B)
    (entry : Fin portMaxRequestQueueDepth) : Port B :=
  if (port.requests entry).heldBy id then { port with
    requests := update port.requests entry .empty
    transfersInFlight :=
      port.transfersInFlight - if (port.requests entry).transfer.isSome then 1 else 0 }
  else port

omit [DecidableEq B] in
theorem purgeEntry_core (id : ConnectionId) (p : Fin P) (state : CallState P C N B)
    (entry : Fin portMaxRequestQueueDepth) :
    (purgeEntry id p state entry).core =
      state.core.setPort p ((state.core.ports p).purgeEntry id entry) := by
  unfold purgeEntry Port.purgeEntry Request.heldBy
  by_cases h : (!((state.core.ports p).requests entry).isLive) ∨
      ((state.core.ports p).requests entry).connection ≠ id
  · rw [if_pos h, if_neg]
    · exact (state.core.setPort_self p).symm
    · rcases h with h | h <;> simp_all
  · rw [if_neg h, if_pos (by simp_all)]
    cases hc : ((state.core.ports p).requests entry).transfer <;> rfl

omit [DecidableEq B] in
theorem purgeEntry_items (id : ConnectionId) (p : Fin P) (state : CallState P C N B)
    (entry : Fin portMaxRequestQueueDepth) :
    (purgeEntry id p state entry).effects.items = state.effects.items := by
  unfold purgeEntry
  dsimp only
  split
  · rfl
  · split
    · exact releaseChild_items ..
    · rfl

omit [DecidableEq B] in
/-- A loop over the entries of a port that rewrites the port and owes nothing. -/
theorem foldl_entries {p : Fin P} (port : Port B → Fin portMaxRequestQueueDepth → Port B)
    {step : CallState P C N B → Fin portMaxRequestQueueDepth → CallState P C N B}
    (hcore : ∀ state entry,
      (step state entry).core = state.core.setPort p (port (state.core.ports p) entry))
    (hitems : ∀ state entry, (step state entry).effects.items = state.effects.items)
    (entries : List (Fin portMaxRequestQueueDepth)) (state : CallState P C N B) :
    (entries.foldl step state).core =
        state.core.setPort p (entries.foldl port (state.core.ports p)) ∧
      (entries.foldl step state).effects.items = state.effects.items := by
  induction entries generalizing state with
  | nil => exact ⟨(state.core.setPort_self p).symm, rfl⟩
  | cons entry entries ih =>
    obtain ⟨htail, hsame⟩ := ih (step state entry)
    refine ⟨?_, hsame.trans (hitems state entry)⟩
    rw [foldl_cons, htail, hcore, foldl_cons]
    simp only [setPort_ports, update_self, setPort_setPort]

omit [DecidableEq B] in
theorem Port.purgeEntry_eq (id : ConnectionId) (port : Port B)
    (entry : Fin portMaxRequestQueueDepth) :
    port.purgeEntry id entry = { port with
      requests := update port.requests entry
        (if (port.requests entry).heldBy id then .empty else port.requests entry)
      transfersInFlight :=
        port.transfersInFlight - if (port.requests entry).carriedBy id then 1 else 0 } := by
  unfold Port.purgeEntry Request.carriedBy
  by_cases hheld : (port.requests entry).heldBy id
  · simp [hheld]
  · simp [hheld, update_eq_self]

omit [DecidableEq B] in
/-- The loop over all entries empties exactly those of the connection. -/
theorem foldl_portPurgeEntry (id : ConnectionId) (port : Port B) :
    (finRange portMaxRequestQueueDepth).foldl (Port.purgeEntry id) port = port.purged id := by
  have h := foldl_induction (Port.purgeEntry id) (fun k port' => port' = { port with
      requests := fun entry => if entry.val < k then
        if (port.requests entry).heldBy id then .empty else port.requests entry
        else port.requests entry
      transfersInFlight := port.transfersInFlight -
        countBelow k fun entry => (port.requests entry).carriedBy id }) port
    (by simp [countBelow_zero]) (by
      rintro entry _ rfl
      simp only [Port.purgeEntry_eq, lt_irrefl, if_false, countBelow_succ, Nat.sub_sub,
        update_below port.requests fun entry =>
          if (port.requests entry).heldBy id then .empty else port.requests entry])
  have hall : countBelow portMaxRequestQueueDepth
      (fun entry => (port.requests entry).carriedBy id) =
      count (Request.carriedBy id) port.requests :=
    (countBelow_all _).trans (count_congr fun _ => rfl)
  rw [h, hall]
  unfold Port.purged
  simp only [Fin.is_lt, if_true]

/-- The connection `purge_connection` leaves. -/
def Connection.purged (conn : Connection) : Connection := { conn with
  outstanding := 0
  transfersInFlight := 0 }

variable (state : CallState P C N B)

omit [DecidableEq B] in
theorem purgeConnection_core (p : Fin P) (c : Fin C) : (purgeConnection state p c).core =
      (state.core.setPort p ((state.core.ports p).purged (state.core.connectionId c))).setConnection
        c (state.core.connections c).purged := by
  unfold purgeConnection
  simp only [(foldl_entries _ (purgeEntry_core _ p) (purgeEntry_items _ p) _ state).1,
    foldl_portPurgeEntry]
  rfl

omit [DecidableEq B] in
theorem purgeConnection_items (p : Fin P) (c : Fin C) :
    (purgeConnection state p c).effects.items = state.effects.items := by
  unfold purgeConnection
  simp only [(foldl_entries _ (purgeEntry_core _ p) (purgeEntry_items _ p) _ state).2]

/-! ## Ending a connection -/

/-- The connection left when a client or server ends it, or when its port is torn down. -/
def Connection.ended (conn : Connection) (state : ConnState) (seq : Nat)
    (events : Ring QueuedEvent portMaxEventQueueDepth) : Connection := { conn with
  outstanding := 0
  transfersInFlight := 0
  closeSeq := seq
  state := state
  events := events }

/-- The core after connection `c` of port `p` ends. -/
def PortCore.endConnection (core : PortCore P C B) (p : Fin P) (c : Fin C) (state : ConnState)
    (events : Ring QueuedEvent portMaxEventQueueDepth) : PortCore P C B :=
  (core.setPort p ((core.ports p).purged (core.connectionId c)).advance).setConnection c
    ((core.connections c).ended state (core.ports p).nextSeq events)

omit [DecidableEq B] in
theorem PortCore.endConnection_key (core : PortCore P C B) (p q : Fin P) (c : Fin C)
    (state : ConnState) (events : Ring QueuedEvent portMaxEventQueueDepth) :
    (core.endConnection p c state events).key q = core.key q :=
  key_congr (read_update (by rfl) q)

omit [DecidableEq B] in
theorem PortCore.endConnection_connectionId (core : PortCore P C B) (p : Fin P) (c d : Fin C)
    (state : ConnState) (events : Ring QueuedEvent portMaxEventQueueDepth) :
    (core.endConnection p c state events).connectionId d = core.connectionId d :=
  connectionId_congr (read_update (by rfl) d)

/-- What the end of a connection by its client owes. -/
def closeWakes (core : PortCore P C B) (p : Fin P) (c : Fin C) : List (Effect B) :=
  [.wakeServer (core.key p)] ++ signals (core.ports p).wake WakeBinding.noticeBit ++
    [.wakeSendSpace (core.key p), .wakeConnection (core.connectionId c)]

theorem closePending_eq {state : CallState P C N B} {p : Fin P} {c : Fin C}
    (h : state.core.portIndex (state.core.connections c).port = some p) (kind : RecvKind)
    (reason : UInt32) :
    (closePending state c kind reason).core =
        state.core.endConnection p c (.closePending kind reason)
          (state.core.connections c).events.clear ∧
      (closePending state c kind reason).effects.items =
        emitAll state.effects.items (closeWakes state.core p c) := by
  have hcore : ((purgeConnection state p c).core.setPort p
      ((purgeConnection state p c).core.ports p).advance).setConnection c
        { (purgeConnection state p c).core.connections c with
          events := ((purgeConnection state p c).core.connections c).events.clear
          closeSeq := ((purgeConnection state p c).core.ports p).nextSeq
          state := .closePending kind reason } =
      state.core.endConnection p c (.closePending kind reason)
        (state.core.connections c).events.clear := by
    rw [purgeConnection_core]
    simp only [setConnection_ports, setPort_ports, update_self,
      setConnection_connections, setConnection_setPort,
      setPort_setPort, setConnection_setConnection]
    rfl
  have hwk : ((purgeConnection state p c).core.ports p).wake = (state.core.ports p).wake := by
    rw [purgeConnection_core]
    simp only [setConnection_ports, setPort_ports, update_self]
    rfl
  unfold closePending
  rw [h]
  simp only [hcore, hwk, endConnection_key, endConnection_connectionId,
    CallState.push_core, CallState.signal_core, CallState.push_items, CallState.signal_items,
    purgeConnection_items, closeWakes, emitAll_append]
  exact ⟨trivial, rfl⟩

/-! ## Tearing a port down -/

/-- A connection that a teardown takes its server from. -/
def Connection.severed (key : PortKey) (conn : Connection) : Bool :=
  decide (conn.port = key) && match conn.state with
    | .open | .serverClosed _ => true
    | _ => false

/-- What the teardown of the port `key` leaves of a connection. -/
def Connection.tornDown (key : PortKey) (seq : Nat) (conn : Connection) : Connection :=
  if conn.severed key then conn.ended .serverGone seq conn.events.clear
  else if PortCore.notice key conn then conn.release
  else conn

/-- What a teardown leaves of the port. -/
def Port.tornDown (port : Port B) (seq : Nat) : Port B := { port with
  requests := fun _ => .empty
  transfersInFlight := 0
  nextSeq := seq
  live := false
  wake := none
  server := .kernel
  serverGeneration := 0 }

omit [DecidableEq B] in
theorem teardownEntry_core (p : Fin P) (state : CallState P C N B)
    (entry : Fin portMaxRequestQueueDepth) :
    (teardownEntry p state entry).core = state.core.setPort p { state.core.ports p with
      requests := update (state.core.ports p).requests entry .empty } := by
  unfold teardownEntry
  dsimp only
  split
  · split <;> rfl
  · rfl

omit [DecidableEq B] in
theorem teardownEntry_items (p : Fin P) (state : CallState P C N B)
    (entry : Fin portMaxRequestQueueDepth) :
    (teardownEntry p state entry).effects.items = state.effects.items := by
  unfold teardownEntry
  dsimp only
  split
  · split
    · exact releaseChild_items ..
    · rfl
  · rfl

omit [DecidableEq B] in
theorem PortCore.connectionId_setConnection (core : PortCore P C B) (c : Fin C)
    {conn : Connection} (h : conn.generation = (core.connections c).generation) (d : Fin C) :
    (core.setConnection c conn).connectionId d = core.connectionId d :=
  connectionId_congr (read_update h d)

/-- One connection of the teardown: a severed one draws a sequence number and is woken. -/
theorem teardownConnection_cases (key : PortKey) (p : Fin P) (state : CallState P C N B)
    (c : Fin C) :
    ((state.core.connections c).severed key ∧ (teardownConnection key p state c).core =
        (state.core.setPort p (state.core.ports p).advance).setConnection c
          ((state.core.connections c).tornDown key (state.core.ports p).nextSeq) ∧
      (teardownConnection key p state c).effects.items =
        emit state.effects.items (.wakeConnection (state.core.connectionId c))) ∨
    ((state.core.connections c).severed key = false ∧
      (∀ seq, (teardownConnection key p state c).core = state.core.setConnection c
        ((state.core.connections c).tornDown key seq)) ∧
      (teardownConnection key p state c).effects.items = state.effects.items) := by
  have hkp : ∀ seq, (state.core.connections c).severed key = false →
      PortCore.notice key (state.core.connections c) = false →
      state.core = state.core.setConnection c ((state.core.connections c).tornDown key seq) := by
    intro seq hs hn
    unfold tornDown
    rw [hs, hn]
    exact (state.core.setConnection_self c).symm
  unfold teardownConnection
  by_cases hkey : (state.core.connections c).state = .free ∨ (state.core.connections c).port ≠ key
  · rw [if_pos hkey]
    have hs : (state.core.connections c).severed key = false := by
      rcases hkey with h | h <;> simp [severed, h]
    have hn : PortCore.notice key (state.core.connections c) = false := by
      rcases hkey with h | h <;> simp [PortCore.notice, h, ConnState.isClosePending]
    exact .inr ⟨hs, fun seq => hkp seq hs hn, rfl⟩
  · rw [if_neg hkey]
    rw [not_or, not_not] at hkey
    have hsv : ∀ conn : Connection, conn.severed key →
        conn.tornDown key (state.core.ports p).nextSeq =
          conn.ended .serverGone (state.core.ports p).nextSeq conn.events.clear := by
      intro conn h
      unfold tornDown
      rw [if_pos h]
    split
    case h_1 h | h_2 h =>
      have hs : (state.core.connections c).severed key := by
        simp [severed, hkey.2, h]
      refine .inl ⟨hs, ?_, ?_⟩
      · rw [hsv _ hs]
        rfl
      · rw [CallState.push_items]
        congr 2
        apply connectionId_setConnection
        rfl
    · next h =>
      have hs : (state.core.connections c).severed key = false := by
        simp [severed, h]
      refine .inr ⟨hs, fun seq => ?_, rfl⟩
      unfold tornDown
      rw [hs, if_neg (by simp), if_pos (by simp [PortCore.notice, hkey.2, h,
        ConnState.isClosePending])]
      rfl
    · next h => exact absurd h hkey.1
    · next h =>
      have hs : (state.core.connections c).severed key = false := by
        simp [severed, h]
      refine .inr ⟨hs, fun seq => hkp seq hs ?_, rfl⟩
      simp [PortCore.notice, h, ConnState.isClosePending]

/-- The connections woken when the port `key` is torn down. -/
structure SeverWakes (core : PortCore P C B) (key : PortKey) (k : Nat)
    (effects : List (Effect B)) : Prop where
  wakes : ∀ c : Fin C, c.val < k → (core.connections c).severed key →
    Effect.wakeConnection (core.connectionId c) ∈ effects
  only : ∀ effect ∈ effects, ∃ c : Fin C, effect = .wakeConnection (core.connectionId c)

/-- The teardown loop when it reaches connection `k`: what it has drawn and whom it has woken. -/
structure Tearing (start : CallState P C N B) (key : PortKey) (p : Fin P) (k : Nat)
    (seqs : Fin C → Nat) (seq : Nat) (effects : List (Effect B))
    (state : CallState P C N B) : Prop where
  wakes : SeverWakes start.core key k effects
  ports : state.core.ports = update start.core.ports p { start.core.ports p with
    nextSeq := seq }
  connections : ∀ c : Fin C, state.core.connections c = if c.val < k then
    (start.core.connections c).tornDown key (seqs c) else start.core.connections c
  items : state.effects.items = emitAll start.effects.items effects

variable {key : PortKey} {p : Fin P} {c : Fin C} {seqs : Fin C → Nat} {seq : Nat}
  {effects : List (Effect B)}

section

variable {start state : CallState P C N B} (h : Tearing start key p c seqs seq effects state)
include p seq effects h

theorem Tearing.connections_update (n : Nat) (d : Fin C) :
    update state.core.connections c ((start.core.connections c).tornDown key n) d =
      if d.val < c.val + 1 then
        (start.core.connections d).tornDown key (update seqs c n d)
      else start.core.connections d := by
  have hbl := congrFun (update_below start.core.connections
    (fun d => (start.core.connections d).tornDown key (update seqs c n d)) c) d
  rw [← hbl, update_self]
  congr 1
  funext e
  rw [h.connections e]
  split
  · next hlt => rw [update_of_ne (Fin.ne_of_val_ne (Nat.ne_of_lt hlt))]
  · rfl

theorem Tearing.step : ∃ seqs seq effects, Tearing start key p (c + 1) seqs seq effects
      (teardownConnection key p state c) := by
  have hrd : state.core.connections c = start.core.connections c := by
    rw [h.connections c, if_neg (lt_irrefl _)]
  have hid : state.core.connectionId c = start.core.connectionId c :=
    connectionId_congr (by rw [hrd])
  rcases teardownConnection_cases key p state c with ⟨hs, hcore, hitems⟩ | ⟨hs, hcore, hitems⟩
  · rw [hrd] at hs hcore
    rw [hid, h.items] at hitems
    refine ⟨update seqs c (state.core.ports p).nextSeq, seqAfter seq,
      effects ++ [.wakeConnection (start.core.connectionId c)], ⟨?_, ?_⟩, ?_, ?_, ?_⟩
    · intro d hd hsd
      rcases Nat.lt_succ_iff_lt_or_eq.1 hd with hlt | heq
      · exact mem_append_left _ (h.wakes.wakes d hlt hsd)
      · rw [Fin.ext heq]
        simp
    · intro effect hef
      rcases mem_append.1 hef with he | he
      · exact h.wakes.only effect he
      · exact ⟨c, mem_singleton.1 he⟩
    · rw [hcore]
      simp only [setConnection_ports, setPort_ports, h.ports, update_idem, update_self]
      rfl
    · intro d
      rw [hcore]
      exact h.connections_update _ d
    · rw [hitems, emitAll_append]
      rfl
  · rw [hrd] at hs hcore
    rw [h.items] at hitems
    refine ⟨update seqs c 0, seq, effects, ⟨?_, h.wakes.only⟩, ?_, ?_, hitems⟩
    · intro d hd hsd
      rcases Nat.lt_succ_iff_lt_or_eq.1 hd with hlt | heq
      · exact h.wakes.wakes d hlt hsd
      · rw [Fin.ext heq, hs] at hsd
        cases hsd
    · rw [hcore 0]
      exact h.ports
    · intro d
      rw [hcore 0]
      exact h.connections_update _ d

end

theorem foldl_teardownConnection (key : PortKey) (p : Fin P) (state : CallState P C N B) :
    ∃ seqs seq effects, Tearing state key p C seqs seq effects
      ((finRange C).foldl (teardownConnection key p) state) := by
  refine foldl_induction (teardownConnection key p) (fun k state' => ∃ seqs seq effects,
      Tearing state key p k seqs seq effects state') state ?_ ?_
  · refine ⟨fun _ => 0, (state.core.ports p).nextSeq, [], ⟨?_, ?_⟩, ?_, ?_, rfl⟩
    · intro c hc
      exact absurd hc (Nat.not_lt_zero _)
    · intro effect h
      cases h
    · exact (update_eq_self p state.core.ports).symm
    · intro c
      rw [if_neg (Nat.not_lt_zero _)]
  · rintro c state' ⟨seqs, seq, effects, h⟩
    exact h.step

/-- The core after port `p` is torn down; `seqs` are the numbers its connections drew. -/
def PortCore.tornDown (core : PortCore P C B) (p : Fin P) (seqs : Fin C → Nat) (seq : Nat) :
    PortCore P C B where
  ports := update core.ports p ((core.ports p).tornDown seq)
  connections := fun c => (core.connections c).tornDown (core.key p) (seqs c)

theorem teardownPort_eq (p : Fin P) :
    ∃ seqs seq effects, SeverWakes state.core (state.core.key p) C effects ∧
      (teardownPort state p).core = state.core.tornDown p seqs seq ∧
      (teardownPort state p).effects.items = emitAll state.effects.items
        (effects ++ [.wakeSendSpace (state.core.key p), .wakeServer (state.core.key p)]) := by
  -- the state after the request loop
  obtain ⟨hcore, hitems⟩ := foldl_entries
    (fun port entry => { port with requests := update port.requests entry .empty })
    (teardownEntry_core p) (teardownEntry_items p) (finRange portMaxRequestQueueDepth) state
  rw [foldl_hom (fun requests => ({ state.core.ports p with requests } : Port B))
    fun _ _ => rfl, foldl_update fun _ _ => Request.empty] at hcore
  unfold teardownPort
  dsimp only
  generalize (finRange portMaxRequestQueueDepth).foldl (teardownEntry p) state = emptied
    at hcore hitems ⊢
  generalize hst : (⟨emptied.core.setPort p { emptied.core.ports p with
    transfersInFlight := 0 }, emptied.table, emptied.effects⟩ : CallState P C N B) = start
  have hcn : start.core.connections = state.core.connections := by
    rw [← hst, hcore]
    rfl
  have hpr : start.core.ports = update state.core.ports p { state.core.ports p with
      requests := fun _ => Request.empty
      transfersInFlight := 0 } := by
    rw [← hst, hcore]
    simp only [setPort_ports, update_idem, update_self]
  have hid : ∀ c, start.core.connectionId c = state.core.connectionId c := fun c =>
    connectionId_congr (by rw [hcn])
  have hstartItems : start.effects.items = state.effects.items := by
    rw [← hst]
    exact hitems
  obtain ⟨seqs, seq, effects, hlp⟩ := foldl_teardownConnection (state.core.key p) p start
  refine ⟨seqs, seq, effects, ⟨?_, ?_⟩, ?_, ?_⟩
  · intro c hc hs
    rw [← hid]
    exact hlp.wakes.wakes c hc (by rw [hcn]; exact hs)
  · intro effect hef
    obtain ⟨c, hc⟩ := hlp.wakes.only effect hef
    exact ⟨c, by rw [hc, hid]⟩
  · unfold PortCore.tornDown PortCore.setPort
    simp only [CallState.push_core, hlp.ports, hpr, update_idem, update_self]
    congr 1
    funext c
    rw [hlp.connections c, if_pos c.isLt, hcn]
  · simp only [CallState.push_items, hlp.items, hstartItems, emitAll_append]
    rfl

end CleanSlate.ServicePort
