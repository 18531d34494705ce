import CleanSlate.ServicePort.Verify.Preservation

/-!
# A move, slot by slot

Seen from one connection or from one port a move does one of a few things, and it shows nothing of
the slots it leaves alone (`Move.atConnection`, `Move.atPort`). What a move does to the queues, the
events and the numbers of a slot is read off that.
-/

namespace CleanSlate.ServicePort

open Lib PortCore List Connection
open Function (update update_self update_of_ne update_apply)
open Capability

variable {P C N : Nat} {B : Type}

/-! ## States of a connection -/

variable {conn : Connection} {key : PortKey}

theorem PortCore.notice_iff :
    PortCore.notice key conn ↔ conn.port = key ∧ conn.state.isClosePending := by
  simp [PortCore.notice]

theorem Connection.used_of_notice (h : conn.state.isClosePending) : conn.state ≠ .free := by
  intro hfr
  rw [hfr] at h
  cases h

theorem notice_not_open (h : PortCore.notice key conn) : conn.state ≠ .open := by
  intro hop
  simp [PortCore.notice, hop, ConnState.isClosePending] at h

theorem Terminal.used {record : PortEventRecord} (h : Terminal conn record) :
    conn.state ≠ .free := by
  cases h with
  | disconnected state | serverGone state => rw [state]; simp

theorem Terminal.not_open {record : PortEventRecord} (h : Terminal conn record) :
    conn.state ≠ .open := by
  cases h with
  | disconnected state | serverGone state => rw [state]; simp

theorem Connection.serverEnded.not_open (h : conn.serverEnded) : conn.state ≠ .open := by
  rcases h with ⟨reason, h⟩ | h <;> rw [h] <;> simp

variable {core core' : PortCore P C B} {c d : Fin C} {p q : Fin P} {obs : Observation}
  {effects : List (Effect B)} {port : Port B}

theorem Inv.connectionId_ne (hC : C ≤ 65535) (inv : Inv core)
    (hc : (core.connections c).state ≠ .free) (hd : (core.connections d).state ≠ .free)
    (hne : d ≠ c) : core.connectionId c ≠ core.connectionId d := fun h =>
  hne (connectionId_inj hC ((inv.connections c).generation hc)
    ((inv.connections d).generation hd) h).1.symm

theorem noticeRecord_kind (inv : Inv core) (h : (core.connections c).state.isClosePending) :
    (noticeRecord core c).kind ≠ .request := by
  cases hst : (core.connections c).state with
  | closePending kind reason =>
    rw [noticeRecord, hst]
    exact (inv.connections c).notice kind reason hst
  | free | «open» | serverClosed | serverGone => rw [hst] at h; cases h

theorem Observation.deliveredAt_eq_some {key key' : PortKey} {record : PortRecvRecord} {seq : Nat}
    (h : Observation.deliveredAt key (.received key' record) = some seq) :
    key' = key ∧ record.kind = .request ∧ record.envelope.kernelSeq = seq := by
  simp only [Observation.deliveredAt, Observation.receivedAt] at h
  by_cases hkey : key' = key
  · rw [if_pos hkey] at h
    by_cases hkn : record.kind = .request
    · simp only [if_pos hkn, Option.some.injEq] at h
      exact ⟨hkey, hkn, h⟩
    · simp [if_neg hkn] at h
  · simp [if_neg hkey] at h

/-! ## One connection -/

/-- The observation says nothing of the connection `id`. -/
structure Observation.SilentOn (obs : Observation) (id : ConnectionId) : Prop where
  sent : obs.sentOn id = .none
  received : obs.receivedOn id = .none
  posted : obs.postedOn id = .none
  returned : obs.returnedOn id = .none

/-- What a move to `core'` that owes `effects` shows and leaves of the connection `d`. -/
inductive ConnMove (core core' : PortCore P C B) (effects : List (Effect B)) (d : Fin C) :
    Observation → Connection → Prop
  | kept {obs : Observation}
      (silent : (core.connections d).state ≠ .free → obs.SilentOn (core.connectionId d)) :
      ConnMove core core' effects d obs (core.connections d)
  | opened {p : Fin P} {caller : Caller} {handle : CapabilityHandle}
      (free : (core.connections d).state = .free)
      (generation : (core.connections d).generation ≠ generationMax) :
      ConnMove core core' effects d
        (.connected ⟨UInt16.ofNat d, (core.connections d).generation + 1⟩)
        ((core.connections d).opened (core.key p) caller handle)
  /-- A request of the connection was queued, or taken off the queue. -/
  | counted {p : Fin P} {obs : Observation} {outstanding transfersInFlight : Nat}
      (on : OpenOn core p d) (notPosted : ∀ id, obs.postedOn id = .none)
      (notReturned : ∀ id, obs.returnedOn id = .none)
      (fuller : (core.connections d).outstanding ≤ outstanding ∧
          (core.connections d).transfersInFlight ≤ transfersInFlight ∨
        .wakeSendSpace (core.key p) ∈ effects) :
      ConnMove core core' effects d obs { core.connections d with
        outstanding, transfersInFlight }
  | posted {p : Fin P} {frame : Frame} (on : OpenOn core p d)
      (room : (core.connections d).events.len < (core.ports p).params.eventDepth)
      (drawn : (core'.ports p).nextSeq = seqAfter (core.ports p).nextSeq)
      (wake : .wakeConnection (core.connectionId d) ∈ effects) :
      ConnMove core core' effects d (.posted (core.connectionId d) frame) { core.connections d with
        events := (core.connections d).events.push ⟨(core.ports p).nextSeq, frame⟩ }
  | took {event : QueuedEvent} {events : Ring QueuedEvent portMaxEventQueueDepth}
      (state : (core.connections d).state = .open ∨
        ∃ reason, (core.connections d).state = .serverClosed reason)
      (pop : (core.connections d).events.pop = some (event, events)) :
      ConnMove core core' effects d (.returned (core.connectionId d) (frameEvent event))
        { core.connections d with
          events }
  | freed {obs : Observation} (ended : (core.connections d).state ≠ .open) :
      ConnMove core core' effects d obs (core.connections d).release
  | disconnected {p : Fin P} {reason : UInt32} (on : OpenOn core p d)
      (wakes : .wakeConnection (core.connectionId d) ∈ effects ∧
        .wakeSendSpace (core.key p) ∈ effects) :
      ConnMove core core' effects d (.disconnected (core.connectionId d))
        ((core.connections d).ended (.serverClosed reason) (core.ports p).nextSeq
          (core.connections d).events)
  | closed {p : Fin P} {kind : RecvKind} {reason : UInt32} (on : OpenOn core p d)
      (drawn : (core'.ports p).nextSeq = seqAfter (core.ports p).nextSeq)
      (wakes : effects = closeWakes core p d) :
      ConnMove core core' effects d .none
        ((core.connections d).ended (.closePending kind reason) (core.ports p).nextSeq
          (core.connections d).events.clear)
  | severed {seq : Nat} (used : (core.connections d).state ≠ .free)
      (wakes : .wakeConnection (core.connectionId d) ∈ effects ∧
        .wakeSendSpace (core.connections d).port ∈ effects) :
      ConnMove core core' effects d .none
        ((core.connections d).ended .serverGone seq (core.connections d).events.clear)

theorem ConnMove.write (h : ConnMove core core' effects c obs conn)
    (hot : ∀ d, d ≠ c → (core.connections d).state ≠ .free →
      obs.SilentOn (core.connectionId d)) (d : Fin C) :
    ConnMove core core' effects d obs (update core.connections c conn d) := by
  by_cases hd : d = c
  · subst hd
    rw [update_self]
    exact h
  · rw [update_of_ne hd]
    exact .kept (hot d hd)

theorem Move.atConnection (hC : C ≤ 65535) (move : Move core obs effects core') (inv : Inv core)
    (d : Fin C) : ConnMove core core' effects d obs (core'.connections d) := by
  -- no other connection in use has the id of the one the move is about
  have hot : ∀ {c : Fin C}, (core.connections c).state ≠ .free →
      (∀ id, core.connectionId c ≠ id → obs.SilentOn id) → ∀ d, d ≠ c →
      (core.connections d).state ≠ .free → obs.SilentOn (core.connectionId d) :=
    fun hc h d hne hd => h _ (inv.connectionId_ne hC hc hd hne)
  cases move with
  | register | bind => exact .kept fun _ => ⟨rfl, rfl, rfl, rfl⟩
  | connect live free generation =>
    exact .write (.opened free generation) (fun _ _ _ => ⟨rfl, rfl, rfl, rfl⟩) d
  | enqueue on =>
    exact .write (.counted on (fun _ => rfl) (fun _ => rfl)
      (.inl ⟨Nat.le_succ _, Nat.le_add_right ..⟩))
      (hot on.used fun id hne => ⟨if_neg hne, rfl, rfl, rfl⟩) d
  | @deliver p entry live queued least =>
    obtain ⟨c, on, hid⟩ := inv.owner p entry queued
    rw [takeRequest_eq hC inv on hid]
    exact .write (.counted on (fun _ => rfl) (fun _ => rfl) (.inr mem_cons_self))
      (hot on.used fun id hne => ⟨rfl, if_neg fun h => hne (hid.symm.trans h), rfl, rfl⟩) d
  | takeNotice live notice =>
    exact .write (.freed (notice_not_open notice))
      (hot (used_of_notice (notice_iff.1 notice).2) fun id hne =>
        ⟨rfl, if_neg hne, rfl, rfl⟩) d
  | post on room =>
    exact .write (.posted on room (congrArg Port.nextSeq (update_self _ _ core.ports))
      mem_cons_self)
      (hot on.used fun id hne => ⟨rfl, rfl, if_neg hne, rfl⟩) d
  | takeEvent state pop =>
    refine .write (.took state pop) (hot ?_ fun id hne => ⟨rfl, rfl, rfl, if_neg hne⟩) d
    rcases state with hs | ⟨reason, hs⟩ <;> simp [hs]
  | finish terminal =>
    exact .write (.freed terminal.not_open)
      (hot terminal.used fun id hne => ⟨rfl, rfl, rfl, if_neg hne⟩) d
  | disconnect on =>
    exact .write (.disconnected on ⟨mem_cons_self, mem_cons_of_mem _ mem_cons_self⟩)
      (fun _ _ _ => ⟨rfl, rfl, rfl, rfl⟩) d
  | clientClose on kind_ne =>
    exact .write (.closed on (congrArg Port.nextSeq (update_self _ _ core.ports)) rfl)
      (fun _ _ _ => ⟨rfl, rfl, rfl, rfl⟩) d
  | discard ended =>
    exact .write (.freed ended.not_open) (fun _ _ _ => ⟨rfl, rfl, rfl, rfl⟩) d
  | @teardown p seqs seq severed live wakes =>
    change ConnMove _ _ _ d _ ((core.connections d).tornDown (core.key p) (seqs d))
    rcases (core.connections d).tornDown_cases (core.key p) (seqs d) with
      ⟨hs, he⟩ | ⟨hnt, he⟩ | ⟨-, -, he⟩
    · rw [he]
      refine .severed (severed_used hs) ⟨mem_append_left _ (wakes.wakes d d.isLt hs), ?_⟩
      rw [severed_port hs]
      exact mem_append_right _ mem_cons_self
    · rw [he]
      exact .freed (notice_not_open hnt)
    · rw [he]
      exact .kept fun _ => ⟨rfl, rfl, rfl, rfl⟩

/-! ## One port -/

/-- What a move to `core'` that owes `effects` shows and leaves of the port `q`. -/
inductive PortMove (core core' : PortCore P C B) (effects : List (Effect B)) (q : Fin P) :
    Observation → Port B → Prop
  | kept {obs : Observation}
      (silent : ∀ d, OpenOn core q d → obs.sentOn (core.connectionId d) = .none ∧
        obs.receivedOn (core.connectionId d) = .none)
      (undelivered : obs.deliveredAt (core.key q) = .none) :
      PortMove core core' effects q obs (core.ports q)
  | bound {key : PortKey} {wake : WakeBinding B} :
      PortMove core core' effects q (.bound key) ((core.ports q).bind wake)
  | registered {resource : ResourceRef} {rights : PortRights} {server : HolderId}
      {serverGeneration : UInt64} {params : PortParams}
      (dead : (core.ports q).live = false)
      (generation : (core.ports q).generation ≠ generationMax) :
      PortMove core core' effects q (.registered ⟨UInt8.ofNat q, (core.ports q).generation + 1⟩)
        ((core.ports q).registered resource rights server serverGeneration params)
  | queued {c : Fin C} {entry : Fin portMaxRequestQueueDepth} {request : Request}
      (on : OpenOn core q c) (free : ((core.ports q).requests entry).isLive = false)
      (seq : request.seq = (core.ports q).nextSeq)
      (connection : request.connection = core.connectionId c)
      (wakes : effects =
        [.wakeServer (core.key q)] ++ signals (core.ports q).wake WakeBinding.requestBit) :
      PortMove core core' effects q (.sent (core.connectionId c) request.message)
        { (core.ports q).advance with
          requests := update (core.ports q).requests entry request
          transfersInFlight := (core.ports q).transfersInFlight +
            if request.transfer.isSome then 1 else 0 }
  | taken {c : Fin C} {entry : Fin portMaxRequestQueueDepth} (on : OpenOn core q c)
      (queued : ((core.ports q).requests entry).isLive)
      (connection : ((core.ports q).requests entry).connection = core.connectionId c)
      (least : ∀ other, ((core.ports q).requests other).isLive →
        ((core.ports q).requests entry).seq ≤ ((core.ports q).requests other).seq)
      (wake : .wakeSendSpace (core.key q) ∈ effects) :
      PortMove core core' effects q
        (.received (core.key q) (requestRecord ((core.ports q).requests entry)))
        { core.ports q with
          requests := update (core.ports q).requests entry .empty
          transfersInFlight := (core.ports q).transfersInFlight -
            if ((core.ports q).requests entry).transfer.isSome then 1 else 0 }
  | drew {id : ConnectionId} {frame : Frame} :
      PortMove core core' effects q (.posted id frame) (core.ports q).advance
  | purged {c : Fin C} {obs : Observation} (on : OpenOn core q c)
      (ended : (core'.connections c).state ≠ .open)
      (silent : ∀ id, obs.sentOn id = .none ∧ obs.receivedOn id = .none)
      (undelivered : ∀ key, obs.deliveredAt key = .none)
      (wake : .wakeSendSpace (core.key q) ∈ effects) :
      PortMove core core' effects q obs ((core.ports q).purged (core.connectionId c)).advance
  | tornDown {seq : Nat} (wake : .wakeSendSpace (core.key q) ∈ effects) :
      PortMove core core' effects q .none ((core.ports q).tornDown seq)

theorem PortMove.write (h : PortMove core core' effects p obs port)
    (hot : ∀ q, q ≠ p → (∀ d, OpenOn core q d → obs.sentOn (core.connectionId d) = .none ∧
      obs.receivedOn (core.connectionId d) = .none) ∧ obs.deliveredAt (core.key q) = .none)
    (q : Fin P) : PortMove core core' effects q obs (update core.ports p port q) := by
  by_cases hq : q = p
  · subst hq
    rw [update_self]
    exact h
  · rw [update_of_ne hq]
    exact .kept (hot q hq).1 (hot q hq).2

theorem Move.atPort (hP : P ≤ 255) (hC : C ≤ 65535) (move : Move core obs effects core')
    (inv : Inv core) (q : Fin P) : PortMove core core' effects q obs (core'.ports q) := by
  -- the connections of another port are others
  have hne : ∀ {p q : Fin P} {c d : Fin C}, q ≠ p → OpenOn core p c → OpenOn core q d →
      core.connectionId c ≠ core.connectionId d := fun hq on hd =>
    inv.connectionId_ne hC on.used hd.used fun hdc =>
      hq (key_inj hP (hd.port.symm.trans (hdc ▸ on.port)))
  cases move with
  | register dead generation valid =>
    exact .write (.registered dead generation) (fun _ _ => ⟨fun _ _ => ⟨rfl, rfl⟩, rfl⟩) q
  | connect | takeEvent | finish | discard => exact .kept (fun _ _ => ⟨rfl, rfl⟩) rfl
  | enqueue on capacity free seq connection =>
    exact .write (.queued on free seq connection rfl)
      (fun q hq => ⟨fun d hd => ⟨if_neg (hne hq on hd), rfl⟩, rfl⟩) q
  | @deliver p entry live queued least =>
    obtain ⟨c, on, hid⟩ := inv.owner p entry queued
    rw [takeRequest_eq hC inv on hid]
    refine .write (.taken on queued hid least mem_cons_self)
      (fun q hq => ⟨fun d hd => ⟨rfl, if_neg fun h => hne hq on hd (hid.symm.trans h)⟩, ?_⟩) q
    by_contra h
    obtain ⟨seq, hseq⟩ := Option.ne_none_iff_exists'.1 h
    exact hq (key_inj hP (Observation.deliveredAt_eq_some hseq).1).symm
  | @takeNotice p c live notice =>
    have hpn := (notice_iff.1 notice).2
    refine .kept (fun d hd => ⟨rfl, if_neg (inv.connectionId_ne hC
      (used_of_notice hpn) hd.used ?_)⟩) ?_
    · rintro rfl
      exact notice_not_open notice hd.state
    · by_contra h
      obtain ⟨seq, hseq⟩ := Option.ne_none_iff_exists'.1 h
      exact noticeRecord_kind inv hpn (Observation.deliveredAt_eq_some hseq).2.1
  | post on room => exact .write .drew (fun _ _ => ⟨fun _ _ => ⟨rfl, rfl⟩, rfl⟩) q
  | @disconnect p c reason on =>
    exact .write (.purged on ((congrArg state (update_self c _ core.connections)).trans_ne
      (by simp [ended])) (fun _ => ⟨rfl, rfl⟩) (fun _ => rfl)
      (mem_cons_of_mem _ mem_cons_self)) (fun _ _ => ⟨fun _ _ => ⟨rfl, rfl⟩, rfl⟩) q
  | bind => exact .write .bound (fun _ _ => ⟨fun _ _ => ⟨rfl, rfl⟩, rfl⟩) q
  | @clientClose p c kind reason on kind_ne =>
    exact .write (.purged on ((congrArg state (update_self c _ core.connections)).trans_ne
      (by simp [ended])) (fun _ => ⟨rfl, rfl⟩) (fun _ => rfl)
      (mem_append_right _ mem_cons_self)) (fun _ _ => ⟨fun _ _ => ⟨rfl, rfl⟩, rfl⟩) q
  | teardown live wakes =>
    exact .write (.tornDown (mem_append_right _ mem_cons_self))
      (fun _ _ => ⟨fun _ _ => ⟨rfl, rfl⟩, rfl⟩) q

/-! ## Ports that stay, and connections that name them -/

/-- A key no REGISTER has returned yet. -/
def Unregistered (core : PortCore P C B) (key : PortKey) : Prop :=
  ∀ p : Fin P, key.slot.toNat = p.val → (core.ports p).generation.toNat < key.generation.toNat

/-- A port that is live after a move was registered by it, or stays registered. Then it draws at
most one number, and none of its requests is new but the one that was sent under that number. -/
inductive PortStays (core : PortCore P C B) (q : Fin P) (obs : Observation) (port : Port B) : Prop
  | registered (key : obs = .registered ⟨UInt8.ofNat q, port.generation⟩)
      (fresh : Unregistered core ⟨UInt8.ofNat q, port.generation⟩) (nextSeq : port.nextSeq = 1)
      (empty : ∀ entry, (port.requests entry).isLive = false)
  | stayed (live : (core.ports q).live) (generation : port.generation = (core.ports q).generation)
      (nextSeq : port.nextSeq = (core.ports q).nextSeq ∨
        port.nextSeq = seqAfter (core.ports q).nextSeq)
      (new : Fin portMaxRequestQueueDepth)
      (requests : ∀ entry, (port.requests entry).isLive →
        port.requests entry = (core.ports q).requests entry ∨
          entry = new ∧ (port.requests entry).seq = (core.ports q).nextSeq ∧
            port.nextSeq = seqAfter (core.ports q).nextSeq ∧ ∃ id message, obs = .sent id message)

theorem not_unregistered (hP : P ≤ 255) (p : Fin P) : ¬Unregistered core (core.key p) := fun h =>
  Nat.lt_irrefl _ (h p (key_slot core hP p))

theorem PortMove.stays (hP : P ≤ 255) (inv : Inv core) (h : PortMove core core' effects q obs port)
    (hlv : port.live) : PortStays core q obs port := by
  cases h with
  | kept | bound => exact .stayed hlv rfl (.inl rfl) (Fin.ofNat _ 0) fun _ _ => .inl rfl
  | drew => exact .stayed hlv rfl (.inr rfl) (Fin.ofNat _ 0) fun _ _ => .inl rfl
  | registered dead generation =>
    refine .registered rfl (fun r hr => ?_) rfl ((inv.ports q).dead dead)
    obtain rfl : q = r := Fin.ext ((key_slot core hP q).symm.trans hr)
    change _ < ((core.ports q).generation + 1).toNat
    rw [Generation.toNat_add_one generation]
    exact Nat.lt_succ_self _
  | @queued c entry request on free seq =>
    refine .stayed on.live rfl (.inr rfl) entry fun e _ => ?_
    dsimp only
    rw [update_apply]
    split
    · next he => exact .inr ⟨he, seq, rfl, _, _, rfl⟩
    · exact .inl rfl
  | @taken c entry on =>
    refine .stayed on.live rfl (.inl rfl) entry fun e he => .inl ?_
    dsimp only at he ⊢
    rw [update_apply] at he ⊢
    split at he
    · cases he
    · next hne => rw [if_neg hne]
  | @purged c obs on =>
    refine .stayed on.live rfl (.inr rfl) (Fin.ofNat _ 0) fun e he => .inl ?_
    change (((core.ports q).purged (core.connectionId c)).requests e).isLive at he
    change ((core.ports q).purged (core.connectionId c)).requests e = _
    rw [Port.purged_requests] at he ⊢
    split at he
    · cases he
    · next hne => rw [if_neg hne]
  | tornDown => cases hlv

/-- A connection in use after a move names a port that was registered before it. -/
theorem ConnMove.registered (hP : P ≤ 255) (inv : Inv core)
    (h : ConnMove core core' effects d obs conn) (hus : conn.state ≠ .free) :
    ¬Unregistered core conn.port := by
  -- unless the move opens it, it was in use and named the same port
  have hold : (core.connections d).state ≠ .free →
      ¬Unregistered core (core.connections d).port := by
    intro hbf hfr
    obtain ⟨p, hsl, hle⟩ := inv.registered d hbf
    have hlt := hfr p (by rw [hsl]; exact key_slot core hP p)
    omega
  cases h with
  | kept => exact hold hus
  | @opened p => exact not_unregistered hP p
  | counted on | posted on | disconnected on | closed on => exact hold on.used
  | took => exact hold hus
  | freed => exact absurd rfl hus
  | severed used => exact hold used

/-- A notice after a move was pending before it, or is that of the connection the move closes. -/
theorem ConnMove.notice (hP : P ≤ 255) (h : ConnMove core core' effects d obs conn)
    (hnt : PortCore.notice (core.key q) conn) :
    conn = core.connections d ∨ OpenOn core q d ∧
      effects = closeWakes core q d ∧ conn.closeSeq = (core.ports q).nextSeq := by
  obtain ⟨hpr, hpn⟩ := notice_iff.1 hnt
  have hnot : ∀ {p : Fin P}, OpenOn core p d →
      (core.connections d).state.isClosePending ≠ true := fun on => by
    rw [on.state]
    simp [ConnState.isClosePending]
  cases h with
  | kept => exact .inl rfl
  | opened | freed | disconnected | severed => cases hpn
  | counted on | posted on => exact absurd hpn (hnot on)
  | took state =>
    rcases state with hs | ⟨reason, hs⟩ <;> simp [hs, ConnState.isClosePending] at hpn
  | closed on drawn wakes =>
    obtain rfl := key_inj hP (on.port.symm.trans hpr)
    exact .inr ⟨on, wakes, rfl⟩

end CleanSlate.ServicePort
