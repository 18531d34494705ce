import CleanSlate.ServicePort.Verify.Order

/-!
# What a call does to the queue of a connection

Seen from one open connection, a call queues one request of it, delivers its oldest one, or leaves
its queue alone (`Steps.flow`). A connection leaves the open state for good.
-/

namespace CleanSlate.ServicePort

open Lib PortCore Request Finset
open Function (update update_self update_of_ne update_apply)
open Capability

variable {P C N : Nat} {B : Type}

/-- The queued requests of the connection `id`. -/
def Port.held (port : Port B) (id : ConnectionId) : Multiset Request :=
  (Finset.univ.filter fun entry => (port.requests entry).heldBy id).val.map port.requests

/-- What a call that shows `obs` does to the queued requests of the connection `id`, when the next
number of its port is `seq`. -/
inductive Flow (id : ConnectionId) (seq : Nat) (held : Multiset Request) :
    Observation → Multiset Request → Prop
  | sent {request : Request} (drawn : request.seq = seq) :
      Flow id seq held (.sent id request.message) (request ::ₘ held)
  | received {key : PortKey} {request : Request} {rest : Multiset Request}
      (connection : request.connection = id) (taken : held = request ::ₘ rest)
      (least : ∀ other ∈ rest, request.seq ≤ other.seq) :
      Flow id seq held (.received key (requestRecord request)) rest
  | other {obs : Observation} (notSent : obs.sentOn id = .none)
      (notReceived : obs.receivedOn id = .none) : Flow id seq held obs held

variable {core : PortCore P C B} {c : Fin C} {port : Port B} {id : ConnectionId} {seq : Nat}
  {held held' : Multiset Request}

theorem Flow.silent (flow : Flow id seq held .none held') : held' = held := by
  cases flow with
  | other => rfl

theorem Flow.of_eq {obs : Observation} (h : held' = held) (notSent : obs.sentOn id = .none)
    (notReceived : obs.receivedOn id = .none) : Flow id seq held obs held' := by
  rw [h]
  exact .other notSent notReceived

theorem Port.mem_held {request : Request} : request ∈ port.held id ↔
      request.heldBy id ∧ ∃ entry, port.requests entry = request := by
  unfold Port.held
  simp only [Multiset.mem_map, mem_val, mem_filter, mem_univ, true_and]
  constructor
  · rintro ⟨entry, hhl, rfl⟩
    exact ⟨hhl, entry, rfl⟩
  · rintro ⟨hhl, entry, rfl⟩
    exact ⟨entry, hhl, rfl⟩

theorem Port.held_congr {port' : Port B} (h : ∀ entry, port'.requests entry = port.requests entry ∨
      (port'.requests entry).heldBy id = false ∧ (port.requests entry).heldBy id = false) :
    port'.held id = port.held id := by
  have hsm : ∀ entry, (port'.requests entry).heldBy id = (port.requests entry).heldBy id := by
    intro entry
    rcases h entry with he | ⟨hnew, hold⟩
    · rw [he]
    · rw [hnew, hold]
  unfold Port.held
  simp only [hsm]
  refine Multiset.map_congr rfl fun entry hen => (h entry).resolve_right fun hnot => ?_
  rw [mem_val] at hen
  have hhl := (mem_filter.1 hen).2
  rw [hnot.2] at hhl
  cases hhl

/-- A request of the connection in an entry that held none of its requests. -/
theorem Port.held_cons {port' : Port B} {entry : Fin portMaxRequestQueueDepth}
    {request : Request} (hnew : port'.requests entry = request) (hin : request.heldBy id)
    (hout : (port.requests entry).heldBy id = false)
    (hot : ∀ other, other ≠ entry → port'.requests other = port.requests other) :
    port'.held id = request ::ₘ port.held id := by
  subst hnew
  have hfl : (univ.filter fun e => (port'.requests e).heldBy id) =
      insert entry (univ.filter fun e => (port.requests e).heldBy id) := by
    ext e
    by_cases he : e = entry
    · simp [he, hin]
    · simp [he, hot e he]
  have hnot : entry ∉ univ.filter fun e => (port.requests e).heldBy id := by
    simp [hout]
  unfold Port.held
  rw [hfl, insert_val_of_notMem hnot, Multiset.map_cons]
  congr 1
  refine Multiset.map_congr rfl fun e he => hot e ?_
  rintro rfl
  exact hnot he

/-- A connection that is open after a move was opened by it, or was open before. -/
inductive StaysOpen (core core' : PortCore P C B) (obs : Observation) (q : Fin P) (d : Fin C) : Prop
  | opened (connected : obs = .connected (core'.connectionId d))
      (empty : (core'.ports q).held (core'.connectionId d) = 0)
  | stayed (before : OpenOn core q d) (id : core'.connectionId d = core.connectionId d)
      (flow : Flow (core.connectionId d) (core.ports q).nextSeq
        ((core.ports q).held (core.connectionId d)) obs
        ((core'.ports q).held (core.connectionId d)))

variable {q : Fin P} {d : Fin C} {obs : Observation} {core' : PortCore P C B} {p : Fin P}
  {effects : List (Effect B)}

/-- What a move does to the queued requests of an open connection. -/
theorem PortMove.flow (hC : C ≤ 65535) (inv : Inv core) (h : PortMove core core' effects q obs port)
    (hlv : port.live) (on : OpenOn core q d) (hop : (core'.connections d).state = .open) :
    Flow (core.connectionId d) (core.ports q).nextSeq
      ((core.ports q).held (core.connectionId d)) obs (port.held (core.connectionId d)) := by
  cases h with
  | kept silent => exact .other (silent d on).1 (silent d on).2
  | bound | drew => exact .other rfl rfl
  | registered dead =>
    rw [on.live] at dead
    cases dead
  | @queued c entry request hc free seq connection =>
    have hem : ∀ id, ((core.ports q).requests entry).heldBy id = false := fun id => by
      simp [heldBy, free]
    by_cases hd : d = c
    · subst hd
      have hlv : request.isLive := by
        simp [isLive, seq, (inv.ports q).nextSeq on.live]
      convert Flow.sent seq using 1
      exact Port.held_cons (update_self ..) (heldBy_iff.2 ⟨hlv, connection⟩) (hem _)
        fun other hot => update_of_ne hot ..
    · have hne := inv.connectionId_ne hC hc.used on.used hd
      refine .of_eq (Port.held_congr fun e => ?_) (if_neg hne) rfl
      dsimp only
      rw [update_apply]
      split
      · next he => exact .inr ⟨by simp [heldBy, connection, hne], he ▸ hem _⟩
      · exact .inl rfl
  | @taken c entry hc queued connection least =>
    by_cases hd : d = c
    · subst hd
      refine .received connection (Port.held_cons rfl (heldBy_iff.2 ⟨queued, connection⟩) ?_
        fun other hot => (update_of_ne hot ..).symm) fun other hot => ?_
      · dsimp only
        rw [update_self]
        rfl
      · obtain ⟨hhl, e, rfl⟩ := Port.mem_held.1 hot
        dsimp only at hhl ⊢
        rw [update_apply] at hhl ⊢
        split at hhl
        · cases hhl
        · next he => rw [if_neg he]; exact least e (heldBy_iff.1 hhl).1
    · have hne := inv.connectionId_ne hC hc.used on.used hd
      refine .of_eq (Port.held_congr fun e => ?_) rfl
        (if_neg fun h => hne (connection.symm.trans h))
      dsimp only
      rw [update_apply]
      split
      · next he => exact .inr ⟨rfl, by simp [he, heldBy, connection, hne]⟩
      · exact .inl rfl
  | @purged c obs hc ended silent =>
    have hd : d ≠ c := by
      rintro rfl
      exact ended hop
    have hne := inv.connectionId_ne hC hc.used on.used hd
    refine .of_eq (Port.held_congr fun e => ?_) (silent _).1 (silent _).2
    change ((core.ports q).purged (core.connectionId c)).requests e = _ ∨
      (((core.ports q).purged (core.connectionId c)).requests e).heldBy _ = false ∧ _
    rw [Port.purged_requests]
    split
    · next hhl => exact .inr ⟨rfl, by simp [heldBy, (heldBy_iff.1 hhl).2, hne]⟩
    · exact .inl rfl
  | tornDown => cases hlv

theorem Move.staysOpen (hP : P ≤ 255) (hC : C ≤ 65535) (move : Move core obs effects core')
    (inv : Inv core) (h : OpenOn core' q d) : StaysOpen core core' obs q d := by
  have hcn := move.atConnection hC inv d
  have hpr := move.atPort hP hC inv q
  obtain ⟨hlv, hkey⟩ : (core.ports q).live ∧ core'.key q = core.key q := by
    cases hpr.stays hP inv h.live with
    | registered _ fresh => exact absurd (h.port ▸ fresh) (hcn.registered hP inv h.used)
    | stayed live generation => exact ⟨live, key_congr generation⟩
  have hst : (core.connections d).state = .open →
      (core'.connections d).port = (core.connections d).port →
      (core'.connections d).generation = (core.connections d).generation →
      StaysOpen core core' obs q d := fun hsa hsm hgen =>
    have before : OpenOn core q d := ⟨hlv, hsa, hsm.symm.trans (h.port.trans hkey)⟩
    .stayed before (connectionId_congr hgen) (hpr.flow hC inv h.live before h.state)
  have hct := ((move.inv hP hC inv).counted q d h).outstanding
  have hop := h.state
  generalize hc : core'.connections d = conn at hcn hst hct hop
  cases hcn with
  | kept | took => exact hst hop rfl rfl
  | opened free generation =>
    refine .opened ?_ (Multiset.eq_zero_of_forall_notMem fun request hrq => ?_)
    · rw [connectionId_opened generation (by rw [hc]; rfl)]
    · -- the counter of a new connection is zero
      obtain ⟨hhl, entry, rfl⟩ := Port.mem_held.1 hrq
      rw [Slots.count_eq_zero.1 hct.symm entry] at hhl
      cases hhl
  | counted on | posted on => exact hst on.state rfl rfl
  | freed | disconnected | closed | severed => cases hop

theorem Steps.staysOpen [DecidableEq B] (fits : Fits P C)
    (steps : Steps core obs effects core') (inv : Inv core) (h : OpenOn core' q d) :
    StaysOpen core core' obs q d := by
  refine steps.shows fits (fun on => .stayed on rfl (.other rfl rfl)) (fun first second on => ?_)
    (fun inv move => move.staysOpen fits.ports.2 fits.connections.2 inv) inv h
  -- silent moves open no connection and leave the queue of every one that stays open
  cases second on with
  | opened connected => cases connected
  | stayed hmid hid hfl =>
    cases first hmid with
    | opened connected => cases connected
    | stayed before id flow =>
      rw [id] at hfl
      exact .stayed before (hid.trans id) (.of_eq (hfl.silent.trans flow.silent) rfl rfl)

/-! ## Slots in use, and the ids they had -/

/-- An id no CONNECT has returned yet. -/
def Fresh (core : PortCore P C B) (id : ConnectionId) : Prop := ∀ c : Fin C, id.slot.toNat = c.val →
    (core.connections c).generation.toNat < id.generation.toNat

theorem takeRequest_generation (core : PortCore P C B) (p : Fin P)
    (entry : Fin portMaxRequestQueueDepth) (d : Fin C) :
    ((takeRequest core p entry).connections d).generation = (core.connections d).generation := by
  unfold takeRequest
  dsimp only
  generalize (if ((core.ports p).requests entry).transfer.isSome then 1 else 0) = carried
  split
  · split
    · exact Slots.read_update (by rfl) d
    · rfl
  · rfl

theorem Move.generation_le (move : Move core obs effects core') (d : Fin C) :
    (core.connections d).generation.toNat ≤ (core'.connections d).generation.toNat := by
  cases move with
  | register | bind => exact le_rfl
  | @connect p c _ _ live free generation =>
    rw [setConnection_connections, update_apply]
    split
    · next hd =>
      rw [hd]
      change _ ≤ ((core.connections c).generation + 1).toNat
      rw [Generation.toNat_add_one generation]
      exact Nat.le_succ _
    · exact le_rfl
  | enqueue | takeNotice | post | takeEvent | finish | disconnect | clientClose | discard =>
    exact Nat.le_of_eq (congrArg _ (Slots.read_update (by rfl) d).symm)
  | deliver => exact Nat.le_of_eq (congrArg _ (takeRequest_generation ..).symm)
  | teardown => exact Nat.le_of_eq (congrArg _ (Connection.tornDown_generation ..).symm)

theorem Steps.generation_le [DecidableEq B] (steps : Steps core obs effects core') (d : Fin C) :
    (core.connections d).generation.toNat ≤ (core'.connections d).generation.toNat := by
  cases steps with
  | move move => exact move.generation_le d
  | path short path =>
    clear short
    induction path with
    | refl => exact le_rfl
    | snoc _ move ih => exact Nat.le_trans ih (move.generation_le d)

theorem Steps.fresh [DecidableEq B] (steps : Steps core obs effects core') (h : Fresh core' id) :
    Fresh core id := fun c hc =>
  Nat.lt_of_le_of_lt (steps.generation_le c) (h c hc)

/-- A connection that is in use after a call was opened by it, or was in use before. -/
inductive StaysUsed (core core' : PortCore P C B) (obs : Observation) (d : Fin C) : Prop
  | opened (connected : obs = .connected (core'.connectionId d))
  | stayed (before : (core.connections d).state ≠ .free)
      (id : core'.connectionId d = core.connectionId d)

theorem Move.staysUsed (hC : C ≤ 65535) (move : Move core obs effects core') (inv : Inv core)
    (h : (core'.connections d).state ≠ .free) : StaysUsed core core' obs d := by
  have hcn := move.atConnection hC inv d
  have hst : (core.connections d).state ≠ .free →
      (core'.connections d).generation = (core.connections d).generation →
      StaysUsed core core' obs d := fun hbf hgen => .stayed hbf (connectionId_congr hgen)
  generalize hc : core'.connections d = conn at hcn hst h
  cases hcn with
  | kept | took => exact hst h rfl
  | opened free generation =>
    exact .opened (by rw [connectionId_opened generation (by rw [hc]; rfl)])
  | counted on | posted on | disconnected on | closed on => exact hst on.used rfl
  | freed => exact absurd rfl h
  | severed used => exact hst used rfl

theorem Steps.staysUsed [DecidableEq B] (fits : Fits P C)
    (steps : Steps core obs effects core') (inv : Inv core)
    (h : (core'.connections d).state ≠ .free) : StaysUsed core core' obs d := by
  refine steps.shows fits (fun hus => .stayed hus rfl) (fun first second hus => ?_)
    (fun inv move => move.staysUsed fits.connections.2 inv) inv h
  cases second hus with
  | opened connected => cases connected
  | stayed hmid hid =>
    cases first hmid with
    | opened connected => cases connected
    | stayed before id => exact .stayed before (hid.trans id)

end CleanSlate.ServicePort
