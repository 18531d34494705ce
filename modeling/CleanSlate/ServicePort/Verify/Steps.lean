import CleanSlate.ServicePort.Verify.Custody

/-!
# The calls of the engine as moves

One inversion lemma for each operation: the outcomes it has, with the checks that lead to them.
Together they say that every call takes the steps of `Steps` (`portStep_steps`).
-/

namespace CleanSlate.ServicePort

open Lib PortCore Slots CallState
open Function (update update_self update_of_ne update_apply)
open Capability

variable {P C N : Nat} {B : Type} [DecidableEq B] {core : PortCore P C B} {raw serve : UInt64}
  {id : ConnectionId} {k l : Nat} {mid : CallState P C N B}

/-! ## Registration and connections -/

omit [DecidableEq B] in
theorem register_cases (core : PortCore P C B) (resource : ResourceRef) (server : HolderId)
    (serverGeneration : UInt64) (params : PortParams) :
    (∃ error, register core resource server serverGeneration params = (.error error, core)) ∨
    ∃ p rights, (core.ports p).live = false ∧ (core.ports p).generation ≠ generationMax ∧
      params.validate = .ok () ∧
      register core resource server serverGeneration params =
        (.ok ⟨UInt8.ofNat p, (core.ports p).generation + 1⟩, core.setPort p
          ((core.ports p).registered resource rights server serverGeneration params)) := by
  unfold register
  split
  · exact .inl ⟨_, rfl⟩
  next rights _ =>
  split
  · exact .inl ⟨_, rfl⟩
  next hvalid =>
  split
  · exact .inl ⟨_, rfl⟩
  split
  · exact .inl ⟨_, rfl⟩
  next p hp =>
  split
  · exact .inl ⟨_, rfl⟩
  have hfree := position_some hp
  simp only [decide_eq_true_eq, Bool.not_eq_true'] at hfree
  refine .inr ⟨p, rights, hfree.1, hfree.2, hvalid, ?_⟩
  refine Prod.ext ?_ rfl
  unfold PortCore.key
  simp only [setPort_ports, update_self]

variable {p : Fin P} {caller : Caller} {c : Fin C} {table : CapabilityTable N}
  {state' state : CallState P C N B} {s : PortSystem P C N B}

omit [DecidableEq B] in
theorem connectTarget_ok {resourceClass id : UInt64} {handle : CapabilityHandle}
    (h : connectTarget core table caller raw resourceClass id = .ok (p, c, handle)) :
    (core.ports p).live ∧ (core.connections c).state = .free ∧
      (core.connections c).generation ≠ generationMax := by
  unfold connectTarget at h
  split at h
  · cases h
  split at h
  · cases h
  split at h
  · cases h
  split at h
  · cases h
  split at h
  · cases h
  next q hq =>
  split at h
  · cases h
  split at h
  · cases h
  split at h
  · cases h
  dsimp only at h
  split at h
  · cases h
  split at h
  · cases h
  split at h
  · cases h
  next d hd =>
  cases h
  have hlive := position_some hq
  have hfree := position_some hd
  simp only [decide_eq_true_eq] at hlive hfree
  exact ⟨hlive.1, hfree⟩

omit [DecidableEq B] in
theorem connect_cases (core : PortCore P C B) (table : CapabilityTable N) (caller : Caller)
    (raw resourceClass id : UInt64) :
    (∃ error, connect core table caller raw resourceClass id = (.error error, core)) ∨
    ∃ p c handle, (core.ports p).live ∧ (core.connections c).state = .free ∧
      (core.connections c).generation ≠ generationMax ∧
      connect core table caller raw resourceClass id =
        (.ok ⟨UInt16.ofNat c, (core.connections c).generation + 1⟩, core.setConnection c
          ((core.connections c).opened (core.key p) caller handle)) := by
  unfold connect
  split
  · exact .inl ⟨_, rfl⟩
  next p c handle h =>
  obtain ⟨hlive, hfree, hgen⟩ := connectTarget_ok h
  refine .inr ⟨p, c, handle, hlive, hfree, hgen, ?_⟩
  refine Prod.ext ?_ rfl
  refine congrArg Except.ok (connectionId_opened hgen ?_)
  rw [setConnection_connections, update_self]
  rfl

/-! ## Closing a connection -/

/-- A call that makes at most `k` silent moves. -/
def Unwinds (k : Nat) (state state' : CallState P C N B) : Prop :=
  ∃ n effects, n ≤ k ∧ Path state.core n effects state'.core ∧
    state'.effects.items = emitAll state.effects.items effects

theorem Unwinds.refl (hcr : state'.core = state.core)
    (hit : state'.effects.items = state.effects.items) (k : Nat) : Unwinds k state state' := by
  refine ⟨0, [], Nat.zero_le k, ?_, hit⟩
  rw [hcr]
  exact .refl

theorem Unwinds.move {effects : List (Effect B)} (move : Move state.core .none effects state'.core)
    (hit : state'.effects.items = emitAll state.effects.items effects) :
    Unwinds 1 state state' :=
  ⟨1, [] ++ effects, Nat.le_refl 1, .snoc .refl move, hit⟩

theorem Unwinds.trans (h : Unwinds k state mid) (h' : Unwinds l mid state') :
    Unwinds (k + l) state state' := by
  obtain ⟨n, effects, hn, hpt, hit⟩ := h
  obtain ⟨m, more, hm, hpt', hit'⟩ := h'
  refine ⟨n + m, effects ++ more, Nat.add_le_add hn hm, hpt.append hpt', ?_⟩
  rw [hit', hit, emitAll_append]

/-- A call that makes at most `k` silent moves, and drops requests only with their children. -/
def Closes (k : Nat) (state state' : CallState P C N B) : Prop :=
  Unwinds k state state' ∧ Unloads state state'

theorem Closes.refl (state : CallState P C N B) (k : Nat) : Closes k state state :=
  ⟨.refl rfl rfl k, .refl state⟩

theorem Closes.trans (h : Closes k state mid) (h' : Closes l mid state') :
    Closes (k + l) state state' :=
  ⟨h.1.trans h'.1, h.2.trans h'.2⟩

/-- A call that makes the move it shows. -/
def Shows (state : CallState P C N B) (obs : Observation) (state' : CallState P C N B) : Prop :=
  ∃ effects, Move state.core obs effects state'.core ∧
    state'.effects.items = emitAll state.effects.items effects

theorem onConnection_eq
    (h : SlotGenerationId.decode raw = .ok id) (obs : ConnectionId → Observation) :
    onConnection raw obs = obs id := by
  unfold onConnection
  rw [h]

/-- A call that fails with at most one silent move, or makes the move it shows and hands over a
child. -/
def Does {α : Type} (state : CallState P C N B) (obs : α → Observation)
    (hand : α → Option TransferredCap) (out : Except PortError α × CallState P C N B) : Prop :=
  (∃ error, out.1 = .error error ∧ Closes 1 state out.2) ∨
    ∃ a, out.1 = .ok a ∧ Shows state (obs a) out.2 ∧ Custody state.system none (hand a) out.2.system

variable {α : Type} {a : α} {hand : α → Option TransferredCap}

theorem Does.closes {obs : α → Observation} (error : PortError) (h : Closes 1 state state') :
    Does state obs hand (.error error, state') :=
  .inl ⟨error, rfl, h⟩

theorem Does.refused {obs : α → Observation} (error : PortError) :
    Does state obs hand (.error error, state) :=
  .closes error (.refl state 1)

theorem Does.onConnection
    {obs : α → ConnectionId → Observation} (hid : SlotGenerationId.decode raw = .ok id)
    (h : Shows state (obs a id) state') (hun : Unloads state state') :
    Does state (fun a => onConnection raw (obs a)) (fun _ => none) (.ok a, state') := by
  refine .inr ⟨a, rfl, ?_, hun.custody⟩
  dsimp only
  rwa [onConnection_eq hid]

theorem Does.onPort {obs : α → PortKey → Observation}
    (hp : s.core.authorizeServe s.table caller serve = .ok p)
    (h : Shows s.call (obs a (s.core.key p)) state')
    (hcs : Custody s.call.system none (hand a) state'.system) :
    Does s.call (fun a => onPort s caller serve (obs a)) hand (.ok a, state') := by
  refine .inr ⟨a, rfl, ?_, hcs⟩
  dsimp only
  unfold ServicePort.onPort
  rwa [hp]

theorem closePending_closes (hP : P ≤ 255) (hop : (state.core.connections c).state = .open)
    {kind : RecvKind} (hkn : kind ≠ .request) (reason : UInt32) :
    Closes 1 state (closePending state c kind reason) := by
  refine ⟨?_, closePending_unloads state c kind reason⟩
  cases h : state.core.portIndex (state.core.connections c).port with
  | none =>
    have hsk : closePending state c kind reason = state := by
      unfold closePending
      rw [h]
    rw [hsk]
    exact .refl rfl rfl 1
  | some p =>
    obtain ⟨hcr, hit⟩ := closePending_eq h kind reason
    obtain ⟨hlive, hpr⟩ := (portIndex_eq_some hP).1 h
    refine .move ?_ hit
    rw [hcr]
    exact .clientClose ⟨hlive, hop, hpr⟩ hkn

theorem consumeTerminal_items (state : CallState P C N B) (c : Fin C) :
    (consumeTerminal state c).effects.items =
      emit state.effects.items (.wakeConnection (state.core.connectionId c)) :=
  push_items ..

theorem consumeTerminal_closes (h : (state.core.connections c).serverEnded) :
    Closes 1 state (consumeTerminal state c) :=
  ⟨.move (.discard h) (consumeTerminal_items state c), consumeTerminal_unloads state c⟩

theorem Unwinds.steps (h : Unwinds k s.call state') (hk : k ≤ P + C) :
    Steps s.core .none state'.effects.items state'.core := by
  obtain ⟨n, effects, hn, hpt, hit⟩ := h
  rw [hit]
  exact .path (Nat.le_trans hn hk) hpt

theorem Shows.steps {obs : Observation} (h : Shows s.call obs state') :
    Steps s.core obs state'.effects.items state'.core := by
  obtain ⟨effects, hmv, hit⟩ := h
  rw [hit]
  exact .move hmv

theorem Steps.refl (core : PortCore P C B) : Steps core .none [] core :=
  .path (n := 0) (Nat.zero_le _) .refl

/-- A capability that no longer authorises either closes the connection or leaves it alone. -/
theorem reauthorizeClient_cases (state : CallState P C N B) (c : Fin C) (p : Fin P) :
    (∃ record, state.table.authorize (state.core.connections c).client
        (state.core.connections c).clientCap (state.core.ports p).resource
        (state.core.ports p).rights.connect = .ok record ∧
      reauthorizeClient state c p = (.ok record.rights.bits, state)) ∨
    reauthorizeClient state c p = (.error .denied, state) ∨
    (∃ error, state.table.authorize (state.core.connections c).client
        (state.core.connections c).clientCap (state.core.ports p).resource
        (state.core.ports p).rights.connect = .error error ∧
      (error = .revoked ∨ error = .staleHandle) ∧
      reauthorizeClient state c p = (.error .stale, closePending state c .clientRevoked 0)) := by
  unfold reauthorizeClient
  dsimp only
  split
  · next record h => exact .inl ⟨record, h, rfl⟩
  · next error h =>
    split
    · next he => exact .inr (.inr ⟨error, h, he, rfl⟩)
    · exact .inr (.inl rfl)

/-! ## SEND -/

/-- The request an accepted SEND queues. -/
def sentRequest (core : PortCore P C B) (caller : Caller) (p : Fin P) (c : Fin C) (frame : Frame)
    (rights : UInt32) (child : Option TransferredCap) : Request where
  seq := (core.ports p).nextSeq
  connection := core.connectionId c
  pid := caller.holder.raw
  domain := caller.domain
  generation := caller.generation
  rights := rights
  transfer := child
  frame := frame

/-- The outcomes of SEND. -/
inductive SendOutcome (state : CallState P C N B) (caller : Caller) (connection : UInt64)
    (frame : Frame) (transfer : Option Transfer) :
    Except PortError Unit × CallState P C N B → Prop
  | refused (error : PortError) :
      SendOutcome state caller connection frame transfer (.error error, state)
  | revoked {p : Fin P} {c : Fin C} {error : CapabilityError}
      (client : state.core.clientConnection caller connection = .ok c)
      (on : OpenOn state.core p c)
      (authorize : state.table.authorize (state.core.connections c).client
        (state.core.connections c).clientCap (state.core.ports p).resource
        (state.core.ports p).rights.connect = .error error)
      (lost : error = .revoked ∨ error = .staleHandle) :
      SendOutcome state caller connection frame transfer
        (.error .stale, closePending state c .clientRevoked 0)
  | childFailed {p : Fin P} {error : PortError} {table : CapabilityTable N}
      (child : sendChild state.table caller.holder (state.core.ports p).server transfer =
        (.error error, table)) :
      SendOutcome state caller connection frame transfer (.error error, { state with
        table := table })
  | accepted {p : Fin P} {c : Fin C} {entry : Fin portMaxRequestQueueDepth} {rights : UInt32}
      {child : Option TransferredCap} {table : CapabilityTable N}
      (client : state.core.clientConnection caller connection = .ok c)
      (on : OpenOn state.core p c)
      (capacity : overCapacity state.core p c transfer.isSome = false)
      (free : ((state.core.ports p).requests entry).isLive = false)
      (minted : sendChild state.table caller.holder (state.core.ports p).server transfer =
        (.ok child, table)) :
      SendOutcome state caller connection frame transfer (.ok (), ((⟨enqueue state.core p c entry
          (sentRequest state.core caller p c frame rights child), table, state.effects⟩ :
            CallState P C N B).push (.wakeServer (state.core.key p))).signal
              (state.core.ports p).wake WakeBinding.requestBit)

theorem send_outcome (hP : P ≤ 255) (state : CallState P C N B) (caller : Caller)
    (connection : UInt64) (frame : Frame) (transfer : Option Transfer) :
    SendOutcome state caller connection frame transfer
      (send state caller connection frame transfer) := by
  unfold send
  split
  · exact .refused _
  next c hcl =>
  split
  case h_1 | h_2 | h_3 | h_4 => exact .refused _
  next hop =>
  split
  · exact .refused _
  next p hp =>
  obtain ⟨hlive, hpr⟩ := (connectionPort_ok hP).1 hp
  have on : OpenOn state.core p c := ⟨hlive, hop, hpr⟩
  unfold sendOn
  rcases reauthorizeClient_cases state c p with ⟨record, -, h⟩ | h | ⟨error, ha, hls, h⟩
  · rw [h]
    dsimp only
    split
    · exact .refused _
    next hcap =>
    split
    · exact .refused _
    next entry hen =>
    have hfree := position_some hen
    split
    · next hch => exact .childFailed hch
    · next hch =>
      exact .accepted hcl on (Bool.eq_false_iff.2 hcap) (by simpa using hfree) hch
  · rw [h]
    exact .refused _
  · rw [h]
    exact .revoked hcl on ha hls

omit [DecidableEq B] in
theorem sendChild_isSome {table' : CapabilityTable N} {sender server : HolderId}
    {transfer : Option Transfer} {child : Option TransferredCap}
    (h : sendChild table sender server transfer = (.ok child, table')) :
    child.isSome = transfer.isSome := by
  unfold sendChild at h
  split at h
  · cases h
    rfl
  split at h
  · cases h
  · split at h
    · cases h
    · cases h
      rfl

/-- A SEND queues a request, or ends at most the sender's connection. -/
theorem send_steps (fits : Fits P C) (s : PortSystem P C N B) (caller : Caller)
    (connection : UInt64) (frame : Frame) (transfer : Option Transfer) :
    Steps s.core (observe (Event.of portStep s (.send caller connection frame transfer)))
      (portStep s (.send caller connection frame transfer)).1.effects.items
      (portStep s (.send caller connection frame transfer)).2.core := by
  obtain ⟨hpos, hP⟩ := fits.ports
  have h := send_outcome hP s.call caller connection frame transfer
  unfold observe Event.of portStep CallState.return
  dsimp only
  generalize send s.call caller connection frame transfer = result at h ⊢
  cases h with
  | refused error => exact .refl s.core
  | revoked client on authorize lost =>
    exact (closePending_closes hP on.state (by simp) 0).1.steps (by omega)
  | childFailed child => exact .refl s.core
  | @accepted p c entry rights child table client on capacity free minted =>
    have hsm := sendChild_isSome minted
    obtain ⟨-, hin, -⟩ := clientConnection_ok.1 client
    dsimp only
    rw [onConnection_eq ((connectionIndex_ok fits.connections.2).1 hin).2.2]
    refine Shows.steps ⟨[.wakeServer (s.core.key p)] ++
      signals (s.core.ports p).wake WakeBinding.requestBit, ?_, ?_⟩
    · rw [signal_core, ← hsm]
      exact @Move.enqueue P C B s.core p c entry
        (sentRequest s.core caller p c frame rights child) on
        (by rw [← hsm] at capacity; exact capacity) free rfl rfl
    · rw [signal_items]
      rfl

/-! ## The other client calls -/

/-- RECV_EVENT returns an event, or ends at most the caller's connection. -/
theorem recvEvent_steps (hP : P ≤ 255) (hC : C ≤ 65535) (state : CallState P C N B)
    (caller : Caller) (connection : UInt64) :
    Does state (fun record => onConnection connection fun id => .returned id record)
      (fun _ => none) (recvEvent state caller connection) := by
  unfold recvEvent
  split
  · exact .refused _
  next c hcl =>
  obtain ⟨-, hin, -⟩ := clientConnection_ok.1 hcl
  have hid := ((connectionIndex_ok hC).1 hin).2.2
  dsimp only
  split
  · next hop =>
    split
    · next event events hpop =>
      exact .onConnection hid ⟨[], .takeEvent (.inl hop) hpop, rfl⟩ (.of_same (fun _ => rfl) rfl)
    split
    · exact .refused _
    next p hp =>
    rcases reauthorizeClient_cases state c p with ⟨record, -, h⟩ | h | ⟨error, -, -, h⟩ <;> rw [h]
    · exact .refused _
    · exact .refused _
    · exact .closes _ (closePending_closes hP hop (by simp) 0)
  · next reason hcs =>
    rcases Ring.pop_eq (state.core.connections c).events with ⟨hpop, hnil⟩ |
      ⟨event, events, hpop, -, -⟩
    · rw [hpop]
      exact .onConnection hid ⟨[.wakeConnection (state.core.connectionId c)],
        .finish (.disconnected hcs hnil), consumeTerminal_items state c⟩
        (consumeTerminal_unloads state c)
    · rw [hpop]
      exact .onConnection hid ⟨[], .takeEvent (.inr ⟨reason, hcs⟩) hpop, rfl⟩
        (.of_same (fun _ => rfl) rfl)
  · next hgn =>
    exact .onConnection hid ⟨[.wakeConnection (state.core.connectionId c)],
      .finish (.serverGone hgn), consumeTerminal_items state c⟩ (consumeTerminal_unloads state c)
  · exact .refused _
  · exact .refused _

theorem close_closes (hP : P ≤ 255) (state : CallState P C N B) (caller : Caller)
    (connection : UInt64) (reason : UInt32) :
    Closes 1 state (close state caller connection reason).2 := by
  unfold close
  split
  · exact .refl state 1
  next c hcl =>
  split
  · next hop => exact closePending_closes hP hop (by simp) reason
  · next r hcs => exact consumeTerminal_closes (.inl ⟨r, hcs⟩)
  · next hgn => exact consumeTerminal_closes (.inr hgn)
  · exact .refl state 1
  · exact .refl state 1

/-! ## Server calls -/

theorem recv_steps (s : PortSystem P C N B) (caller : Caller) (serve : UInt64) :
    Does s.call (fun record => onPort s caller serve fun key => .received key record)
      (fun record => record.envelope.transfer) (recv s.call caller serve) := by
  unfold recv
  split
  · exact .refused _
  next p hp =>
  have hlive := authorizeServe_ok hp
  dsimp only
  split
  · next c hc =>
    have hfr : Unloads s.call ⟨freeConnection s.core c, s.table, .new⟩ :=
      .of_same (fun _ => rfl) rfl
    exact .onPort hp ⟨[], .takeNotice hlive (minBy_some hc).1, rfl⟩ hfr.custody
  split
  · exact .refused _
  · next entry hen =>
    obtain ⟨hqd, hls⟩ := minBy_some hen
    exact .onPort hp ⟨[.wakeSendSpace (s.core.key p)], .deliver hlive hqd hls,
      push_items ..⟩ (takeRequest_custody s p hqd)

omit [DecidableEq B] in
theorem servedConnection_open (hC : C ≤ 65535) {connection : UInt64}
    (hp : core.authorizeServe table caller serve = .ok p)
    (hc : core.servedConnection p connection = .ok c) (hopen : (core.connections c).state = .open) :
    OpenOn core p c ∧ SlotGenerationId.decode connection = .ok (core.connectionId c) := by
  obtain ⟨hindex, hport⟩ := servedConnection_ok.1 hc
  exact ⟨⟨authorizeServe_ok hp, hopen, hport⟩, ((connectionIndex_ok hC).1 hindex).2.2⟩

section

variable (hC : C ≤ 65535) (state : CallState P C N B) (caller : Caller) (serve connection : UInt64)
include hC

theorem post_steps (frame : Frame) :
    Does state (fun _ => onConnection connection fun id => .posted id frame) (fun _ => none)
      (post state caller serve connection frame) := by
  unfold post
  split
  · exact .refused _
  next p hp =>
  split
  · exact .refused _
  next c hc =>
  split
  case h_1 | h_2 | h_3 | h_4 => exact .refused _
  next hopen =>
  obtain ⟨on, hid⟩ := servedConnection_open hC hp hc hopen
  split
  · exact .refused _
  next hrm =>
  refine .onConnection hid ⟨[.wakeConnection (state.core.connectionId c)],
    .post on (Nat.lt_of_not_le hrm), ?_⟩ (.of_same (fun q => ?_) rfl)
  · rw [push_items]
    have hsm : (postEvent state.core p c frame).connectionId c =
        state.core.connectionId c := by
      apply connectionId_congr
      simp only [postEvent, setConnection_connections, update_self]
    rw [hsm]
    rfl
  · exact requests_setPort state.core (by rfl) q

theorem disconnect_steps (reason : UInt32) :
    Does state (fun _ => onConnection connection fun id => .disconnected id) (fun _ => none)
      (disconnect state caller serve connection reason) := by
  unfold disconnect
  split
  · exact .refused _
  next p hp =>
  split
  · exact .refused _
  next c hc =>
  split
  case h_1 | h_2 | h_3 | h_4 => exact .refused _
  next hopen =>
  obtain ⟨on, hid⟩ := servedConnection_open hC hp hc hopen
  have hcr : ((purgeConnection state p c).core.setPort p
      ((purgeConnection state p c).core.ports p).advance).setConnection c
        { (purgeConnection state p c).core.connections c with
          closeSeq := ((purgeConnection state p c).core.ports p).nextSeq
          state := .serverClosed reason } =
      state.core.endConnection p c (.serverClosed reason) (state.core.connections c).events := by
    rw [purgeConnection_core]
    simp only [setConnection_ports, setPort_ports, update_self,
      setConnection_connections, setConnection_setPort,
      setPort_setPort, setConnection_setConnection]
    rfl
  refine .onConnection hid ⟨[.wakeConnection (state.core.connectionId c),
    .wakeSendSpace (state.core.key p)], ?_, ?_⟩ ?_
  · simp only [hcr]
    exact .disconnect on
  · simp only [push_items, hcr, endConnection_key,
      endConnection_connectionId, purgeConnection_items]
    rfl
  · have h := purgeConnection_unloads state p c
    generalize purgeConnection state p c = purged at h ⊢
    refine h.trans (.of_same (fun q => ?_) rfl)
    exact requests_setPort purged.core (by rfl) q

end

theorem bindWake_steps (s : PortSystem P C N B) (caller : Caller) (serve : UInt64) (target : B)
    (requestBit noticeBit : UInt32) :
    Does s.call (fun _ => onPort s caller serve fun key => .bound key) (fun _ => none)
      (bindWake s.call caller serve target requestBit noticeBit) := by
  unfold bindWake
  split
  · exact .refused _
  split
  · exact .refused _
  next p hp =>
  have hkey : (s.core.setPort p ((s.core.ports p).bind
      ⟨target, requestBit, noticeBit⟩)).key p = s.core.key p := by
    apply key_congr
    rw [setPort_ports, update_self]
    rfl
  have hqd : ((s.core.setPort p ((s.core.ports p).bind
      ⟨target, requestBit, noticeBit⟩)).ports p).queuedRequests =
        (s.core.ports p).queuedRequests := by
    rw [setPort_ports, update_self]
    rfl
  refine .onPort hp ⟨
    (if (s.core.ports p).queuedRequests ≠ 0 then [.signal target requestBit] else []) ++
      (if (position (notice (s.core.key p)) s.core.connections).isSome
        then [.signal target noticeBit] else []), ?_, ?_⟩
    (Unloads.of_same (fun q => ?_) ?_).custody
  · simp only [ite_push_core]
    exact @Move.bind P C B s.core p ⟨target, requestBit, noticeBit⟩ (authorizeServe_ok hp)
  · unfold Port.bind at hkey hqd
    simp only [PortSystem.call, ite_push_items, ite_push_core, emitAll_append,
      hkey, hqd, setPort_connections]
  · simp only [ite_push_core]
    exact requests_setPort s.core (by rfl) q
  · simp only [apply_ite table, push_table, ite_self]

/-! ## Teardown -/

theorem teardownPort_closes (hlive : (state.core.ports p).live) :
    Closes 1 state (teardownPort state p) := by
  obtain ⟨seqs, seq, effects, hwk, hcr, hit⟩ := teardownPort_eq state p
  refine ⟨.move ?_ hit, teardownPort_unloads state p⟩
  rw [hcr]
  exact .teardown hlive hwk

theorem unregister_closes (hP : P ≤ 255) (state : CallState P C N B) (key : PortKey) :
    Closes 1 state (unregister state key).2 := by
  unfold unregister
  split
  · next p hp => exact teardownPort_closes ((portIndex_eq_some hP).1 hp).1
  · exact .refl state 1

theorem exitPort_closes (holder : HolderId) (generation : UInt64)
    (s : PortReleaseCounts × CallState P C N B) (p : Fin P) :
    Closes 1 s.2 (exitPort holder generation s p).2 := by
  unfold exitPort
  dsimp only
  split
  · next h => exact teardownPort_closes h.1
  · exact .refl s.2 1

theorem exitConnection_closes (hP : P ≤ 255) (holder : HolderId) (generation : UInt64)
    (s : PortReleaseCounts × CallState P C N B) (c : Fin C) :
    Closes 1 s.2 (exitConnection holder generation s c).2 := by
  unfold exitConnection
  dsimp only
  split
  · exact .refl s.2 1
  split
  · next hopen => exact closePending_closes hP hopen (by simp) 0
  · next r hcl => exact consumeTerminal_closes (.inl ⟨r, hcl⟩)
  · next hgn => exact consumeTerminal_closes (.inr hgn)
  · exact .refl s.2 1
  · exact .refl s.2 1

/-- A holder's exit makes at most one silent move for each port and each connection. -/
theorem onHolderExit_closes (hP : P ≤ 255) (state : CallState P C N B) (holder : HolderId)
    (generation : UInt64) : Closes (P + C) state (onHolderExit state holder generation).2 := by
  have hpr := foldl_induction (exitPort holder generation)
    (fun k s => Closes k state s.2) (⟨0, 0⟩, state)
    (.refl state 0) (fun p s h => h.trans (exitPort_closes holder generation s p))
  exact foldl_induction (exitConnection holder generation)
    (fun k s => Closes (P + k) state s.2) _ hpr
    (fun c s h => h.trans (exitConnection_closes hP holder generation s c))

/-! ## Every call -/

theorem portStep_outcome (fits : Fits P C) (s : PortSystem P C N B) (op : PortOp B) :
    Steps s.core (observe (Event.of portStep s op)) (portStep s op).1.effects.items
      (portStep s op).2.core ∧
    ((∃ tableOp, op = .table tableOp) ∨
      (∃ caller connection frame transfer, op = .send caller connection frame transfer) ∨
      Custody s (minted (Event.of portStep s op)) (handed (Event.of portStep s op))
        (portStep s op).2) := by
  obtain ⟨hpos, hP⟩ := fits.ports
  have hC := fits.connections.2
  cases op with
  | register resource server serverGeneration params =>
    rcases register_cases s.core resource server serverGeneration params with ⟨error, h⟩ |
      ⟨p, rights, hdd, hgen, hvalid, h⟩ <;>
      simp only [portStep, Event.of, h]
    · exact ⟨.refl s.core, .inr (.inr (Unloads.refl s.call).custody)⟩
    · exact ⟨.move (.register hdd hgen hvalid),
        .inr (.inr (setPort_unloads s.call p (by rfl)).custody)⟩
  | unregister key =>
    have h := unregister_closes hP s.call key
    exact ⟨h.1.steps (by omega), .inr (.inr h.2.custody)⟩
  | connect caller handle resourceClass id =>
    rcases connect_cases s.core s.table caller handle resourceClass id with ⟨error, h⟩ |
      ⟨p, c, han', hlive, hfree, hgen, h⟩ <;>
      simp only [portStep, Event.of, h]
    · exact ⟨.refl s.core, .inr (.inr (Unloads.refl s.call).custody)⟩
    · have hop : Unloads s.call ⟨s.core.setConnection c
          ((s.core.connections c).opened (s.core.key p) caller han'), s.table, .new⟩ :=
        .of_same (fun _ => rfl) rfl
      exact ⟨.move (.connect hlive hfree hgen), .inr (.inr hop.custody)⟩
  | send caller connection frame transfer =>
    exact ⟨send_steps fits s caller connection frame transfer, .inr (.inl ⟨_, _, _, _, rfl⟩)⟩
  | recvEvent caller connection =>
    rcases recvEvent_steps hP hC s.call caller connection with ⟨_, hr, h, hd⟩ | ⟨_, hr, h, hd⟩ <;>
      simp only [portStep, Event.of, hr]
    · exact ⟨h.steps (by omega), .inr (.inr hd.custody)⟩
    · exact ⟨h.steps, .inr (.inr hd)⟩
  | close caller connection reason =>
    have h := close_closes hP s.call caller connection reason
    exact ⟨h.1.steps (by omega), .inr (.inr h.2.custody)⟩
  | recv caller serve =>
    rcases recv_steps s caller serve with ⟨_, hr, h, hd⟩ | ⟨_, hr, h, hd⟩ <;>
      simp only [portStep, Event.of, hr]
    · exact ⟨h.steps (by omega), .inr (.inr hd.custody)⟩
    · exact ⟨h.steps, .inr (.inr hd)⟩
  | post caller serve connection frame =>
    rcases post_steps hC s.call caller serve connection frame with
      ⟨_, hr, h, hd⟩ | ⟨_, hr, h, hd⟩ <;>
      simp only [portStep, Event.of, hr]
    · exact ⟨h.steps (by omega), .inr (.inr hd.custody)⟩
    · exact ⟨h.steps, .inr (.inr hd)⟩
  | disconnect caller serve connection reason =>
    rcases disconnect_steps hC s.call caller serve connection reason with
      ⟨_, hr, h, hd⟩ | ⟨_, hr, h, hd⟩ <;>
      simp only [portStep, Event.of, hr]
    · exact ⟨h.steps (by omega), .inr (.inr hd.custody)⟩
    · exact ⟨h.steps, .inr (.inr hd)⟩
  | bindWake caller serve target requestBit noticeBit =>
    rcases bindWake_steps s caller serve target requestBit noticeBit with
      ⟨_, hr, h, hd⟩ | ⟨_, hr, h, hd⟩ <;>
      simp only [portStep, Event.of, hr]
    · exact ⟨h.steps (by omega), .inr (.inr hd.custody)⟩
    · exact ⟨h.steps, .inr (.inr hd)⟩
  | holderExit holder generation =>
    have h := onHolderExit_closes hP s.call holder generation
    exact ⟨h.1.steps le_rfl, .inr (.inr h.2.custody)⟩
  | table op => exact ⟨.refl s.core, .inl ⟨op, rfl⟩⟩

theorem portStep_steps (fits : Fits P C) (s : PortSystem P C N B) (op : PortOp B) :
    Steps s.core (observe (Event.of portStep s op)) (portStep s op).1.effects.items
      (portStep s op).2.core :=
  (portStep_outcome fits s op).1

end CleanSlate.ServicePort
