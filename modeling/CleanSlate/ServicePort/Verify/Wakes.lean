import CleanSlate.ServicePort.Verify.Owed
import CleanSlate.ServicePort.Verify.PortOrder
import CleanSlate.ServicePort.Verify.Wrap

/-!
# No wake-up is lost

A RECV, a RECV_EVENT or a SEND that had to wait and no longer does is woken by the call that made
the difference: the move that makes it ready owes the wake-up (`Move.recvReady_edge`,
`Move.event_edge`, `Move.space_edge`), so every call does (`wakes_owed`).
-/

namespace CleanSlate.ServicePort

open Lib PortCore List Slots
open Function (update update_self update_of_ne update_apply)
open Capability

variable {P C N : Nat} {B : Type} {key : PortKey} {wake : WakeBinding B} {obs : Observation}
  {effects : List (Effect B)} {raw : UInt64} {port : Port B}

/-! ## Readiness -/

section

variable (core : PortCore P C B) (key : PortKey)

/-- Whether a request is queued on the port `key`. -/
def requestsPending : Bool :=
  match core.portIndex key with
  | some p => (core.ports p).queuedRequests ≠ 0
  | none => false

/-- Whether a notice is pending on the port `key`. -/
def noticesPending : Bool :=
  match core.portIndex key with
  | some _ => (Slots.position (PortCore.notice key) core.connections).isSome
  | none => false

/-- Whether RECV on the port `key` has a record to return. -/
def recvReady : Bool :=
  requestsPending core key || noticesPending core key

/-- Whether SEND on `connection`, with a capability or without, waits for queue space. -/
def sendBlocks (connection : UInt64) (carries : Bool) : Bool :=
  match core.connectionIndex connection with
  | .error _ => false
  | .ok c =>
    match (core.connections c).state, core.portIndex (core.connections c).port with
    | .open, some p => overCapacity core p c carries ||
      (Slots.position (fun request : Request => !request.isLive) (core.ports p).requests).isNone
    | _, _ => false

end

variable {core : PortCore P C B} {p q : Fin P} {c d : Fin C} {conn : Connection}
  {core' : PortCore P C B} {id : ConnectionId} {carries : Bool}

section Readiness

theorem requestsPending_iff (hP : P ≤ 255) :
    requestsPending core key ↔ ∃ p, (core.ports p).live ∧ key = core.key p ∧
      ∃ entry, ((core.ports p).requests entry).isLive := by
  unfold requestsPending
  constructor
  · intro h
    split at h
    · next p hp =>
      obtain ⟨hlv, hkey⟩ := (portIndex_eq_some hP).1 hp
      have hpos : 0 < (core.ports p).queuedRequests := by
        simp only [ne_eq, decide_not, Bool.not_eq_true', decide_eq_false_iff_not] at h
        omega
      exact ⟨p, hlv, hkey, count_pos.1 hpos⟩
    · cases h
  · rintro ⟨p, hlv, rfl, hen⟩
    have hpos : 0 < (core.ports p).queuedRequests := count_pos.2 hen
    rw [portIndex_key hP hlv]
    simp only [ne_eq, decide_not, Bool.not_eq_true', decide_eq_false_iff_not]
    omega

theorem noticesPending_iff (hP : P ≤ 255) :
    noticesPending core key ↔ ∃ p c, (core.ports p).live ∧ key = core.key p ∧
      PortCore.notice key (core.connections c) := by
  unfold noticesPending
  constructor
  · intro h
    split at h
    · next p hp =>
      obtain ⟨hlv, hkey⟩ := (portIndex_eq_some hP).1 hp
      obtain ⟨c, hc⟩ := Option.isSome_iff_exists.1 h
      exact ⟨p, c, hlv, hkey, position_some hc⟩
    · cases h
  · rintro ⟨p, c, hlv, rfl, hnt⟩
    rw [portIndex_key hP hlv]
    exact Option.isSome_iff_exists.2 (position_isSome hnt)

/-! ## Receivers -/

/-- Where a notice for the live port `p` was before a move: pending already, or an open connection
that the move closes. -/
def NoticeFrom (core : PortCore P C B) (p : Fin P) (c : Fin C) (key : PortKey)
    (effects : List (Effect B)) : Prop :=
  (core.ports p).live ∧ key = core.key p ∧
    (PortCore.notice (core.key p) (core.connections c) ∨ effects = closeWakes core p c)

section

section

variable (hP : P ≤ 255) (hC : C ≤ 65535) (move : Move core obs effects core') (inv : Inv core)
include hP hC move inv

theorem Move.noticeFrom (live : (core'.ports q).live)
    (notice : PortCore.notice (core'.key q) (core'.connections d)) :
    NoticeFrom core q d (core'.key q) effects := by
  obtain ⟨hpr, hpn⟩ := notice_iff.1 notice
  have hcn := move.atConnection hC inv d
  cases (move.atPort hP hC inv q).stays hP inv live with
  | registered _ fresh =>
    -- no connection names the key of a new registration
    exact absurd (hpr ▸ fresh) (hcn.registered hP inv (Connection.used_of_notice hpn))
  | stayed live generation =>
    have hkey : core'.key q = core.key q := key_congr generation
    rw [hkey] at notice
    refine ⟨live, hkey, (hcn.notice hP notice).imp (fun hsm => ?_) fun h => h.2.1⟩
    rwa [hsm] at notice

/-- A queued request after a move was queued before it, or the move queued it. -/
theorem Move.requestFrom (live : (core'.ports q).live) {entry : Fin portMaxRequestQueueDepth}
    (queued : ((core'.ports q).requests entry).isLive) :
    (core.ports q).live ∧ core'.key q = core.key q ∧ (((core.ports q).requests entry).isLive ∨
        obs ≠ .none ∧ effects =
          [.wakeServer (core.key q)] ++ signals (core.ports q).wake WakeBinding.requestBit) := by
  have hpr := move.atPort hP hC inv q
  cases hpr.stays hP inv live with
  | registered _ _ _ empty =>
    rw [empty entry] at queued
    cases queued
  | stayed hlv generation nextSeq new requests =>
    refine ⟨hlv, key_congr generation, ?_⟩
    rcases requests entry queued with heq | ⟨-, -, -, id, message, rfl⟩
    · exact .inl (heq ▸ queued)
    generalize core'.ports q = port at hpr queued
    cases hpr with
    | kept => exact .inl queued
    | queued on free seq connection wakes => exact .inr ⟨by simp, wakes⟩
    | purged on ended silent => exact absurd ((silent id).1) (by simp [Observation.sentOn])

/-- A move that makes a port ready wakes its server. -/
theorem Move.recvReady_edge (h : recvReady core key = false) :
    recvReady core' key = false ∨ .wakeServer key ∈ effects := by
  rw [recvReady, Bool.or_eq_false_iff] at h
  by_cases hrd : recvReady core' key
  · refine .inr ?_
    rw [recvReady, Bool.or_eq_true] at hrd
    rcases hrd with hrq | hnt
    · obtain ⟨p, hlv, rfl, entry, hen⟩ := (requestsPending_iff hP).1 hrq
      obtain ⟨hbf, hkey, hqd | ⟨-, hef⟩⟩ := move.requestFrom hP hC inv hlv hen
      · rw [(requestsPending_iff hP).2 ⟨p, hbf, hkey, entry, hqd⟩] at h
        cases h.1
      · rw [hef, hkey]
        exact mem_cons_self
    · obtain ⟨p, c, hlv, rfl, hnc⟩ := (noticesPending_iff hP).1 hnt
      obtain ⟨hbf, hkey, hpn | hef⟩ := move.noticeFrom hP hC inv hlv hnc
      · rw [(noticesPending_iff hP).2 ⟨p, c, hbf, hkey, hkey ▸ hpn⟩] at h
        cases h.2
      · rw [hef, hkey]
        exact mem_cons_self
  · exact .inl (Bool.eq_false_iff.2 hrd)

end

variable [DecidableEq B] (fits : Fits P C)
include fits

/-- A call that makes requests pending signals the binding of the port. -/
theorem Steps.request_signal (steps : Steps core obs effects core') (inv : Inv core)
    (hbf : requestsPending core key = false) (haf : requestsPending core' key)
    (hp : core.portIndex key = some p) (hwk : (core.ports p).wake = some wake) :
    .signal wake.target wake.requestBit ∈ effects := by
  have hP := fits.ports.2
  have hC := fits.connections.2
  obtain ⟨hlv, rfl⟩ := (portIndex_eq_some hP).1 hp
  obtain ⟨q, hlv', hkey', entry, hen⟩ := (requestsPending_iff hP).1 haf
  obtain rfl := key_inj hP hkey'
  have hem : ((core.ports p).requests entry).isLive ≠ true := fun h => by
    rw [(requestsPending_iff hP).2 ⟨p, hlv, rfl, entry, h⟩] at hbf
    cases hbf
  cases steps with
  | move move =>
    obtain ⟨-, -, hqd | ⟨-, hef⟩⟩ := move.requestFrom hP hC inv hlv' hen
    · exact absurd hqd hem
    · refine move.mem_emitAll fits ?_
      rw [hef]
      exact mem_append_right _ (mem_signals hwk)
  | path short path =>
    cases (Steps.path short path).portFlow fits inv hlv' with
    | registered key => cases key
    | stayed _ _ requests =>
      rcases requests entry hen with hsm | ⟨⟨_, _, hobs⟩, -⟩
      · exact absurd (hsm ▸ hen) hem
      · cases hobs

/-- A call that makes a notice pending signals the binding of the port. -/
theorem Steps.notice_signal (steps : Steps core obs effects core') (inv : Inv core)
    (hbf : noticesPending core key = false) (haf : noticesPending core' key)
    (hp : core.portIndex key = some p) (hwk : (core.ports p).wake = some wake) :
    .signal wake.target wake.noticeBit ∈ effects := by
  have hP := fits.ports.2
  have hC := fits.connections.2
  obtain ⟨hlv, rfl⟩ := (portIndex_eq_some hP).1 hp
  -- as long as the port is live it keeps its binding
  have hed : ∀ {mid core' : PortCore P C B} {obs : Observation} {effects : List (Effect B)},
      Inv mid → Steady core mid → noticesPending mid (core.key p) = false →
      Move mid obs effects core' → noticesPending core' (core.key p) = false ∨
        .signal wake.target wake.noticeBit ∈ effects := by
    intro mid core' obs effects hinv hst hnn move
    by_cases hpn : noticesPending core' (core.key p)
    · refine .inr ?_
      obtain ⟨q, c, hql, hqk, hnt⟩ := (noticesPending_iff hP).1 hpn
      rw [hqk] at hnt
      obtain ⟨hmid, hkey, hold | hef⟩ := move.noticeFrom hP hC hinv hql hnt
      · rw [hqk, (noticesPending_iff hP).2 ⟨q, c, hmid, hkey, hkey ▸ hold⟩] at hnn
        cases hnn
      · obtain rfl := key_inj hP hqk
        rw [hef]
        refine mem_append_left _ (mem_append_right _ (mem_signals ?_))
        rw [(hst.live p hmid).2, hwk]
    · exact .inl (Bool.eq_false_iff.2 hpn)
  cases steps with
  | move move =>
    rcases hed inv (.refl core) hbf move with hnn | hmem
    · rw [haf] at hnn
      cases hnn
    · exact move.mem_emitAll fits hmem
  | path _ path =>
    have hpt := path.edge hP hC
      (R := fun mid => Steady core mid ∧ noticesPending mid (core.key p) = false)
      (fun hinv hR move => (hed hinv hR.1 hR.2 move).imp_left
        fun h => ⟨hR.1.trans move.silent.2, h⟩) inv ⟨.refl core, hbf⟩
    rcases hpt with ⟨-, hnn⟩ | hmem
    · rw [haf] at hnn
      cases hnn
    · exact path.mem_emitAll fits hmem

end

/-! ## Clients that wait for an event -/

/-- A client of the open connection `id` has no event to read. -/
structure AwaitsEvent (core : PortCore P C B) (c : Fin C) (id : ConnectionId) : Prop where
  state : (core.connections c).state = .open
  drained : (core.connections c).events.len = 0
  id : core.connectionId c = id

/-- A move that gives a waiting client something to read wakes it. -/
theorem Move.event_edge (hC : C ≤ 65535)
    (move : Move core obs effects core') (inv : Inv core) (h : AwaitsEvent core d id) :
    AwaitsEvent core' d id ∨ .wakeConnection id ∈ effects := by
  have hcn := move.atConnection hC inv d
  have hkp : (core'.connections d).state = (core.connections d).state →
      (core'.connections d).events = (core.connections d).events →
      (core'.connections d).generation = (core.connections d).generation →
      AwaitsEvent core' d id := fun hst hev hgen =>
    ⟨hst.trans h.state, by rw [hev, h.drained], (connectionId_congr hgen).trans h.id⟩
  generalize core'.connections d = conn at hcn hkp
  rw [← h.id]
  cases hcn with
  | kept | counted => exact .inl (h.id ▸ hkp rfl rfl rfl)
  | opened free =>
    rw [h.state] at free
    cases free
  | posted on room drawn wake => exact .inr wake
  | took state pop =>
    unfold Ring.pop at pop
    rw [if_pos h.drained] at pop
    cases pop
  | freed ended => exact absurd h.state ended
  | disconnected on wakes | severed used wakes => exact .inr wakes.1
  | closed on drawn wakes =>
    rw [wakes]
    exact .inr (mem_append_right _ (mem_cons_of_mem _ mem_cons_self))

theorem eventReady_false (hC : C ≤ 65535) (h : eventReady core raw = false) :
    ∃ c, core.connectionIndex raw = .ok c ∧
      SlotGenerationId.decode raw = .ok (core.connectionId c) ∧
      AwaitsEvent core c (core.connectionId c) := by
  unfold eventReady at h
  split at h
  · next c hc =>
    simp only [ne_eq, Bool.decide_or, Bool.or_eq_false_iff, decide_eq_false_iff_not, not_not] at h
    exact ⟨c, hc, ((connectionIndex_ok hC).1 hc).2.2, h.1, h.2, rfl⟩
  · cases h

theorem AwaitsEvent.eventReady (hC : C ≤ 65535) (inv : Inv core) (h : AwaitsEvent core c id)
    (hraw : SlotGenerationId.decode raw = .ok id) :
    ServicePort.eventReady core raw = false := by
  have hus : (core.connections c).state ≠ .free := by
    rw [h.state]
    simp
  have hin : core.connectionIndex raw = .ok c := (connectionIndex_ok hC).2
    ⟨hus, (inv.connections c).generation hus, by rw [hraw, h.id]⟩
  unfold ServicePort.eventReady
  rw [hin]
  simp [h.state, h.drained]

/-! ## Senders that wait for queue space -/

/-- SEND on the connection `id` of the port `key` is over capacity. -/
structure AwaitsSpace (core : PortCore P C B) (p : Fin P) (c : Fin C) (key : PortKey)
    (id : ConnectionId) (carries : Bool) : Prop where
  on : OpenOn core p c
  full : overCapacity core p c carries
  key : core.key p = key
  id : core.connectionId c = id

/-- The port has no more room than before. -/
structure Port.Fuller (port port' : Port B) : Prop where
  live : port'.live = port.live
  generation : port'.generation = port.generation
  params : port'.params = port.params
  queued : port.queuedRequests ≤ port'.queuedRequests
  transfers : port.transfersInFlight ≤ port'.transfersInFlight

/-- The connection has no more room than before. -/
structure Connection.Fuller (conn conn' : Connection) : Prop where
  state : conn'.state = conn.state
  generation : conn'.generation = conn.generation
  port : conn'.port = conn.port
  outstanding : conn.outstanding ≤ conn'.outstanding
  transfers : conn.transfersInFlight ≤ conn'.transfersInFlight

theorem AwaitsSpace.of_fuller (h : AwaitsSpace core q d key id carries)
    (hpr : (core.ports q).Fuller (core'.ports q))
    (hcn : (core.connections d).Fuller (core'.connections d)) :
    AwaitsSpace core' q d key id carries := by
  have hkey : core'.key q = core.key q := key_congr hpr.generation
  refine ⟨⟨hpr.live.trans h.on.live, hcn.state.trans h.on.state, ?_⟩, ?_,
    hkey.trans h.key, (connectionId_congr hcn.generation).trans h.id⟩
  · rw [hcn.port, h.on.port, hkey]
  · have hov := h.full
    unfold overCapacity at hov ⊢
    simp only [decide_eq_true_eq, hpr.params] at hov ⊢
    rcases hov with hout | hqd | ⟨hcr, hcs | hpt⟩
    · exact .inl (Nat.le_trans hout hcn.outstanding)
    · exact .inr (.inl (Nat.le_trans hqd hpr.queued))
    · exact .inr (.inr ⟨hcr, .inl (Nat.le_trans hcs hcn.transfers)⟩)
    · exact .inr (.inr ⟨hcr, .inr (Nat.le_trans hpt hpr.transfers)⟩)

theorem PortMove.fuller (h : PortMove core core' effects q obs port) (hlv : (core.ports q).live) :
    (core.ports q).Fuller port ∨ .wakeSendSpace (core.key q) ∈ effects := by
  cases h with
  | kept | bound | drew => exact .inl ⟨rfl, rfl, rfl, le_rfl, le_rfl⟩
  | registered dead =>
    rw [hlv] at dead
    cases dead
  | @queued c entry request on free =>
    refine .inl ⟨rfl, rfl, rfl, ?_, Nat.le_add_right ..⟩
    change count Request.isLive (core.ports q).requests ≤
      count Request.isLive (update (core.ports q).requests entry request)
    rw [count_update_of_not free]
    exact Nat.le_add_right ..
  | taken on queued connection least wake => exact .inr wake
  | purged on ended silent undelivered wake => exact .inr wake
  | tornDown wake => exact .inr wake

theorem ConnMove.fuller (h : ConnMove core core' effects d obs conn) (on : OpenOn core q d) :
    (core.connections d).Fuller conn ∨ .wakeSendSpace (core.key q) ∈ effects := by
  -- a wake-up for the port of the connection is one for `q`
  have hwk : ∀ {p : Fin P}, OpenOn core p d → .wakeSendSpace (core.key p) ∈ effects →
      .wakeSendSpace (core.key q) ∈ effects := fun hp hmem => by
    rwa [← on.port, hp.port]
  cases h with
  | kept | posted | took => exact .inl ⟨rfl, rfl, rfl, le_rfl, le_rfl⟩
  | opened free => exact absurd free on.used
  | counted hp _ _ fuller =>
    exact fuller.imp (fun hle => ⟨rfl, rfl, rfl, hle.1, hle.2⟩) (hwk hp)
  | freed ended => exact absurd on.state ended
  | disconnected hp wakes => exact .inr (hwk hp wakes.2)
  | closed hp drawn wakes =>
    rw [wakes] at hwk ⊢
    exact .inr (hwk hp (mem_append_right _ mem_cons_self))
  | severed used wakes => exact .inr (on.port ▸ wakes.2)

/-- A move that makes room for a waiting sender, or ends its connection, wakes the senders of the
port. -/
theorem Move.space_edge (hP : P ≤ 255) (hC : C ≤ 65535)
    (move : Move core obs effects core') (inv : Inv core)
    (h : AwaitsSpace core q d key id carries) :
    AwaitsSpace core' q d key id carries ∨ .wakeSendSpace key ∈ effects := by
  rw [← h.key]
  rcases (move.atPort hP hC inv q).fuller h.on.live with hpr | hwk
  · rcases (move.atConnection hC inv d).fuller h.on with hcn | hwk
    · exact .inl (h.key ▸ h.of_fuller hpr hcn)
    · exact .inr hwk
  · exact .inr hwk

theorem sendBlocks_true (hP : P ≤ 255) (hC : C ≤ 65535) (inv : Inv core)
    (h : sendBlocks core raw carries) :
    ∃ p c, core.connectionIndex raw = .ok c ∧
      SlotGenerationId.decode raw = .ok (core.connectionId c) ∧
      AwaitsSpace core p c (core.key p) (core.connectionId c) carries := by
  unfold sendBlocks at h
  split at h
  · cases h
  next c hc =>
  split at h
  · next p hop hp =>
    obtain ⟨hlv, hpr⟩ := (portIndex_eq_some hP).1 hp
    refine ⟨p, c, hc, ((connectionIndex_ok hC).1 hc).2.2, ⟨hlv, hop, hpr⟩, ?_, rfl, rfl⟩
    rw [Bool.or_eq_true, Option.isNone_iff_eq_none] at h
    rcases h with h | hfl
    · exact h
    -- the pool holds at least as many entries as any valid depth
    have hdp := PortParams.validate_ok ((inv.ports p).params hlv)
    have hcn : (core.ports p).queuedRequests = portMaxRequestQueueDepth :=
      count_eq_n.2 fun entry => by simpa using position_none.1 hfl entry
    unfold overCapacity
    simp only [decide_eq_true_eq]
    omega
  · cases h

theorem AwaitsSpace.sendBlocks (hP : P ≤ 255) (hC : C ≤ 65535) (inv : Inv core)
    (h : AwaitsSpace core p c key id carries) (hraw : SlotGenerationId.decode raw = .ok id) :
    ServicePort.sendBlocks core raw carries := by
  have hus := h.on.used
  have hin : core.connectionIndex raw = .ok c := (connectionIndex_ok hC).2
    ⟨hus, (inv.connections c).generation hus, by rw [hraw, h.id]⟩
  unfold ServicePort.sendBlocks
  rw [hin]
  simp only [h.on.state, h.on.port, portIndex_key hP h.on.live, h.full, Bool.true_or]

end Readiness

/-! ## Every call -/

/-- The wake-ups a call from `core` to `core'` must owe. -/
structure OwesWakes (core core' : PortCore P C B) (effects : List (Effect B)) : Prop where
  /-- A port that becomes ready wakes its server, -/
  server : ∀ key, recvReady core key = false → recvReady core' key → .wakeServer key ∈ effects
  /-- and sets the bit of what became pending on the work set bound to it. -/
  request : ∀ key p wake, requestsPending core key = false → requestsPending core' key →
    core.portIndex key = some p → (core.ports p).wake = some wake →
    .signal wake.target wake.requestBit ∈ effects
  notice : ∀ key p wake, noticesPending core key = false → noticesPending core' key →
    core.portIndex key = some p → (core.ports p).wake = some wake →
    .signal wake.target wake.noticeBit ∈ effects
  /-- A connection that becomes readable wakes its client. -/
  event : ∀ connection c, core.connectionIndex connection = .ok c →
    eventReady core connection = false → eventReady core' connection →
    .wakeConnection (core.connectionId c) ∈ effects
  /-- A SEND that no longer blocks wakes the senders of the port. -/
  space : ∀ connection carries c, core.connectionIndex connection = .ok c →
    sendBlocks core connection carries → sendBlocks core' connection carries = false →
    .wakeSendSpace (core.connections c).port ∈ effects

theorem Steps.owesWakes [DecidableEq B] (fits : Fits P C)
    (steps : Steps core obs effects core') (inv : Inv core) : OwesWakes core core' effects := by
  have hP := fits.ports.2
  have hC := fits.connections.2
  refine ⟨fun key hbf haf => ?_, fun key p wake hbf haf hp hwk => ?_,
    fun key p wake hbf haf hp hwk => ?_, fun raw c hc hbf haf => ?_,
    fun raw carries c hc hbf haf => ?_⟩
  · rcases steps.edge fits (fun hinv h move => move.recvReady_edge hP hC hinv h) inv hbf with h | h
    · rw [haf] at h
      cases h
    · exact h
  · exact steps.request_signal fits inv hbf haf hp hwk
  · exact steps.notice_signal fits inv hbf haf hp hwk
  · obtain ⟨d, hd, hraw, haw⟩ := eventReady_false hC hbf
    obtain rfl : c = d := Except.ok.inj (hc.symm.trans hd)
    rcases steps.edge fits (fun hinv h move => move.event_edge hC hinv h) inv haw with h | h
    · rw [h.eventReady hC (steps.inv fits inv) hraw] at haf
      cases haf
    · exact h
  · obtain ⟨p, d, hd, hraw, haw⟩ := sendBlocks_true hP hC inv hbf
    obtain rfl : c = d := Except.ok.inj (hc.symm.trans hd)
    rw [haw.on.port]
    rcases steps.edge fits (fun hinv h move => move.space_edge hP hC hinv h) inv haw with h | h
    · rw [h.sendBlocks hP hC (steps.inv fits inv) hraw] at haf
      cases haf
    · exact h

/-- No wake-up is lost in any run of the engine. -/
theorem wakes_owed [DecidableEq B] {core : PortCore P C B} (h : PortCore.new = some core)
    (table : CapabilityTable N) (ops : List (PortOp B)) (op : PortOp B) :
    OwesWakes (run portStep ⟨core, table⟩ ops).core
      (portStep (run portStep ⟨core, table⟩ ops) op).2.core
      (portStep (run portStep ⟨core, table⟩ ops) op).1.effects.items := by
  obtain ⟨fits, -⟩ := new_eq h
  exact (portStep_steps fits _ op).owesWakes fits (run_inv h table ops)

/-- A SEND to an idle server wakes it. -/
theorem wakes_owed_send :
    recvReady soleState.core ⟨0, 1⟩ = false ∧
      recvReady (portStep soleState (.send soleClient soleConnection zeroFrame none)).2.core
        ⟨0, 1⟩ = true ∧
      .wakeServer ⟨0, 1⟩ ∈
        (portStep soleState (.send soleClient soleConnection zeroFrame none)).1.effects.items := by
  have hbf : recvReady soleState.core ⟨0, 1⟩ = false := by decide
  have haf : recvReady (portStep soleState
      (.send soleClient soleConnection zeroFrame none)).2.core ⟨0, 1⟩ := by decide
  exact ⟨hbf, haf, (wakes_owed soleStart_new soleStart.table openSession
    (.send soleClient soleConnection zeroFrame none)).server _ hbf haf⟩

end CleanSlate.ServicePort
