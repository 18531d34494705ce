import CleanSlate.ServicePort.Verify.History
import CleanSlate.ServicePort.Verify.PortOrder
import CleanSlate.ServicePort.Verify.Wrap

/-!
# Requests reach the server

Every connection is a channel of messages: SEND puts, RECV takes, and the end of the connection
shuts it (`Carried`). What the server sees of it is a run of requests and then at most one notice.
-/

namespace CleanSlate.ServicePort

open Lib PortCore List Observation
open Capability

variable {P C N : Nat} {B : Type} {message : Message} {record : PortRecvRecord}
  {core : PortCore P C B} {c : Fin C}

/-! ## What an observation says about the connections -/

variable {core' : PortCore P C B} {obs : Observation} {effects : List (Effect B)}
  {id : ConnectionId}

section

variable [DecidableEq B] (hP : P ≤ 255) (steps : Steps core obs effects core')
include hP steps

/-- A SEND is accepted on a connection that is open, and stays so. -/
theorem Steps.sentOn_open (h : obs.sentOn id = some message) :
    ∃ p c, OpenOn core' p c ∧ core'.connectionId c = id := by
  cases steps with
  | path => cases h
  | move move =>
    cases move with
    | @enqueue p c entry request on capacity free seq connection =>
      simp only [sentOn] at h
      split at h
      · next hid =>
        refine ⟨p, c, ?_, (connectionId_write (by rfl) c).trans hid⟩
        exact (openOn_write_self hP (by rfl) (by exact on.live) (by exact on.port)).2
          ⟨rfl, on.state⟩
      · cases h
    | _ => cases h

/-- A RECV is about a connection in use: the connection of a delivered request stays open, that of a
notice is freed. -/
theorem Steps.receivedOn_used (hC : C ≤ 65535) (inv : Inv core)
    (h : obs.receivedOn id = some record) :
    ∃ c, (core.connections c).state ≠ .free ∧ core.connectionId c = id ∧
      core'.connectionId c = id ∧ (record.kind = .request → ∃ p, OpenOn core' p c) ∧
      (record.kind ≠ .request → (core'.connections c).state = .free) := by
  cases steps with
  | path => cases h
  | move move =>
    cases move with
    | @deliver p entry live queued least =>
      simp only [receivedOn] at h
      split at h
      · next hid =>
        obtain ⟨c, on, hc⟩ := inv.owner p entry queued
        have hcid : core.connectionId c = id := hc.symm.trans hid
        rw [takeRequest_eq hC inv on hc]
        refine ⟨c, on.used, hcid, (connectionId_write (by rfl) c).trans hcid,
          fun _ => ⟨p, ?_⟩, fun hkn => ?_⟩
        · exact (openOn_write_self hP (by rfl) (by exact on.live) (by exact on.port)).2
            ⟨rfl, on.state⟩
        · cases h
          exact absurd rfl hkn
      · cases h
    | @takeNotice p c live notice =>
      simp only [receivedOn] at h
      split at h
      · next hid =>
        have hpn := (notice_iff.1 notice).2
        cases h
        refine ⟨c, Connection.used_of_notice hpn, hid,
          (connectionId_setConnection core c (by rfl) c).trans hid,
          fun hkn => absurd hkn (noticeRecord_kind inv hpn), fun _ => ?_⟩
        rw [freeConnection, setConnection_connections, Function.update_self]
        rfl
      · cases h
    | _ => cases h

end

/-- What a history says about the requests of the connection `id`. -/
abbrev RequestsSeen (hist : List Observation) (core : PortCore P C B) (id : ConnectionId) : Prop :=
  Seen (Observation.sentOn id) (Observation.receivedOn id)
    (fun record : PortRecvRecord => record.kind ≠ .request) hist core id

theorem RequestsSeen.next [DecidableEq B] (fits : Fits P C)
    (steps : Steps core obs effects core') (inv : Inv core) (inv' : Inv core')
    {hist : List Observation} (h : RequestsSeen hist core id) :
    RequestsSeen (hist ++ [obs]) core' id := by
  refine Seen.next fits steps inv inv' (fun message hobs => ?_) (fun record hobs => ?_) h
  · obtain ⟨p, c, on, hid⟩ := steps.sentOn_open fits.ports.2 hobs
    exact ⟨c, on.used, hid⟩
  · obtain ⟨c, hus, hid, hid', -, hfr⟩ :=
      steps.receivedOn_used fits.ports.2 fits.connections.2 inv hobs
    exact ⟨c, hus, hid, hid', hfr⟩

/-! ## A connection as a channel -/

theorem Observation.deliveredOn_eq_some (h : obs.deliveredOn id = some message) :
    ∃ record, obs.receivedOn id = some record ∧ record.kind = .request := by
  unfold deliveredOn at h
  split at h
  · next record hrc =>
    split at h
    · next hkn => exact ⟨record, hrc, hkn⟩
    · cases h
  · cases h

theorem Observation.deliveredOn_eq_none (h : obs.receivedOn id = .none) :
    obs.deliveredOn id = .none := by
  rw [deliveredOn, h]

/-- The messages of the queued requests, in the order of their numbers where `fifo` holds. -/
def Queued (fifo : Prop) (held : Multiset Request) (queue : List Message) : Prop :=
  ∃ requests : List Request, (requests : Multiset Request) = held ∧
    queue = requests.map Request.message ∧
    (fifo → requests.Pairwise fun a b => a.seq < b.seq)

/-- What a call shows of an open connection is a step of its channel. -/
theorem Flow.channel {fifo : Prop} {seq : Nat} {held held' : Multiset Request}
    (flow : Flow id seq held obs held') (below : fifo → ∀ request ∈ held, request.seq < seq)
    {ch : Channel Message} (hrc : Channel.Reachable fifo ch) (hop : ch.phase = .open)
    (hqd : Queued fifo held ch.queue) :
    ∃ ch', Channel.Reachable fifo ch' ∧ ch'.phase = .open ∧ Queued fifo held' ch'.queue ∧
      ch'.puts = ch.puts ++ (obs.sentOn id).toList ∧
      ch'.takes = ch.takes ++ (obs.deliveredOn id).toList := by
  obtain ⟨requests, hhl, hqu, hsr⟩ := hqd
  cases flow with
  | @sent request drawn =>
    refine ⟨_, hrc.step (.put request.message hop), hop, ⟨requests ++ [request], ?_, ?_,
      fun hf => ?_⟩, by simp [sentOn],
      by simp [deliveredOn, receivedOn]⟩
    · rw [← Multiset.coe_add, hhl, Multiset.coe_singleton, Multiset.add_comm,
        Multiset.singleton_add]
    · simp [hqu]
    · refine pairwise_append.2 ⟨hsr hf, pairwise_singleton .., ?_⟩
      intro a ha b hb
      rw [mem_singleton.1 hb, drawn]
      refine below hf a ?_
      rwa [← hhl, Multiset.mem_coe]
  | @received key request _ connection taken least =>
    have hmem : request ∈ requests := by
      rw [← Multiset.mem_coe, hhl, taken]
      exact Multiset.mem_cons_self ..
    obtain ⟨front, back, rfl⟩ := append_of_mem hmem
    have hrs : (front ++ back : List Request) = held' := by
      rw [taken] at hhl
      have hpr : (front ++ request :: back : List Request) = request ::ₘ (front ++ back) := by
        rw [Multiset.cons_coe, Multiset.coe_eq_coe]
        exact perm_middle
      rw [hpr] at hhl
      exact (Multiset.cons_inj_right request).1 hhl
    have hfr : fifo → front = [] := by
      intro hf
      cases front with
      | nil => rfl
      | cons first front =>
        -- the first request of the queue has the least number
        have hlt : first.seq < request.seq := rel_of_pairwise_cons (hsr hf) (by simp)
        have hle := least first (by rw [← hrs]; simp)
        omega
    have hsp : ch.queue = front.map Request.message ++
        request.message :: back.map Request.message := by
      rw [hqu, map_append, map_cons]
    refine ⟨_, hrc.step (.take hsp fun hf => by rw [hfr hf]; rfl), hop,
      ⟨front ++ back, hrs, (map_append ..).symm, fun hf => ?_⟩, ?_, ?_⟩
    · refine (hsr hf).sublist ?_
      exact List.Sublist.append_left (sublist_cons_self ..) _
    · simp [sentOn]
    · simp [deliveredOn, receivedOn, requestRecord, connection,
        PortRecvRecord.message, Request.message]
  | other notSent notReceived =>
    refine ⟨ch, hrc, hop, ⟨requests, hhl, hqu, hsr⟩, ?_, ?_⟩
    · rw [notSent]
      simp
    · rw [deliveredOn_eq_none notReceived]
      simp

/-- The channel of a connection that is open. -/
def Pending (fifo : Prop) (core : PortCore P C B) (c : Fin C) (ch : Channel Message) : Prop :=
  ch.phase = .open ∧
    ∀ p, OpenOn core p c → Queued fifo ((core.ports p).held (core.connectionId c)) ch.queue

/-- The requests of the connection `id` as a channel: open as long as the connection is, then shut. -/
abbrev Carried (fifo : Prop) (hist : List Observation) (core : PortCore P C B)
    (id : ConnectionId) : Channel Message → Prop :=
  Conveyed (sentOn id) (deliveredOn id) (fun _ => False) (fun core c => ∃ p, OpenOn core p c)
    Pending fifo hist core id

variable {fifo : Prop} {hist : List Observation} {ch : Channel Message} {p : Fin P}

theorem Carried.next [DecidableEq B] {fifo' : Prop} (fits : Fits P C)
    (steps : Steps core obs effects core') (inv : Inv core) (inv' : Inv core')
    (hfifo : fifo' → fifo) (ordered : fifo' → Ordered core) (seen : RequestsSeen hist core id)
    (h : Carried fifo hist core id ch) : ∃ ch', Carried fifo' (hist ++ [obs]) core' id ch' := by
  refine Conveyed.next fits steps inv' hfifo seen (fun _ => ⟨rfl, rfl⟩) deliveredOn_eq_none
    (fun ⟨_, on⟩ => on.used) (fun message hobs => ?_) (fun message hobs => ?_)
    (fun c ⟨p, on⟩ hid => ?_) False.elim h
  · obtain ⟨p, c, on, hid⟩ := steps.sentOn_open fits.ports.2 hobs
    exact ⟨c, ⟨p, on⟩, hid⟩
  · obtain ⟨record, hrc, hkn⟩ := deliveredOn_eq_some hobs
    obtain ⟨c, -, -, hid, hst, -⟩ := steps.receivedOn_used fits.ports.2 fits.connections.2 inv hrc
    exact ⟨c, hst hkn, hid⟩
  subst hid
  have hport : ∀ q, OpenOn core' q c → q = p := fun q hq => (inv'.openOn_unique fits on hq rfl).1
  cases steps.staysOpen fits inv on with
  | opened connected empty =>
    refine .opened connected ⟨rfl, fun q hq => ?_⟩
    rw [hport q hq]
    exact ⟨[], empty.symm, rfl, fun _ => .nil⟩
  | stayed before hsm flow =>
    refine .stayed ⟨p, before⟩ hsm fun ch hrc ⟨hop, hqd⟩ => ?_
    obtain ⟨requests, hhl, hqu, hsr⟩ := hqd p before
    rw [← hsm] at flow hhl
    obtain ⟨ch', hrc', hop', hqd', hpt', htk'⟩ := flow.channel
      (fun hf request hrq => by
        obtain ⟨hhl, entry, rfl⟩ := Port.mem_held.1 hrq
        exact (ordered hf p before.live).requests entry (Request.heldBy_iff.1 hhl).1)
      (hrc.imp hfifo) hop ⟨requests, hhl, hqu, fun hf => hsr (hfifo hf)⟩
    refine ⟨ch', hrc', ⟨hop', fun q hq => ?_⟩, hpt', htk'⟩
    rw [hport q hq]
    exact hqd'

/-! ## Whole runs -/

/-- What a history and the state it leads to have in common. -/
structure Requests (log : List (PortEvent P C N B)) (core : PortCore P C B) : Prop where
  inv : Inv core
  ordered : (∀ e ∈ log, NoWrap e) → Ordered core
  seen : ∀ id, RequestsSeen (history log) core id
  carried : ∀ id, ∃ ch, Carried (∀ e ∈ log, NoWrap e) (history log) core id ch
  inOrder : (∀ e ∈ log, NoWrap e) → ∀ key, InOrder (history log) core key

theorem Requests.new : Requests ([] : List (PortEvent P C N B))
    (⟨fun _ => .empty, fun _ => .empty⟩ : PortCore P C B) where
  inv := .new
  ordered _ _ hlv := nomatch hlv
  seen _ := .new
  carried _ := ⟨.new, .new, rfl, rfl, fun _ ⟨_, on⟩ => (nomatch on.live), fun _ => .inr rfl, nofun⟩
  inOrder _ _ := ⟨fun _ => rfl, fun _ hlv => (nomatch hlv), .nil⟩

theorem Requests.next [DecidableEq B] (fits : Fits P C)
    {log : List (PortEvent P C N B)} {s : PortSystem P C N B} (h : Requests log s.core)
    (op : PortOp B) : Requests (log ++ [Event.of portStep s op]) (portStep s op).2.core := by
  have steps := portStep_steps fits s op
  have inv' := steps.inv fits h.inv
  have hps : (∀ e ∈ log ++ [Event.of portStep s op], NoWrap e) → ∀ e ∈ log, NoWrap e :=
    fun hlog e he => hlog e (mem_append_left _ he)
  have hnow : (∀ e ∈ log ++ [Event.of portStep s op], NoWrap e) →
      NoWrap (Event.of portStep s op) := fun hlog => hlog _ (by simp)
  refine ⟨inv', fun hlog => ?_, fun id => ?_, fun id => ?_, fun hlog key => ?_⟩
  · exact steps.ordered fits h.inv (h.ordered (hps hlog)) (hnow hlog)
  · rw [history_snoc]
    exact RequestsSeen.next fits steps h.inv inv' (h.seen id)
  · obtain ⟨ch, hcr⟩ := h.carried id
    rw [history_snoc]
    exact hcr.next fits steps h.inv inv' hps (fun hlog => h.ordered (hps hlog)) (h.seen id)
  · rw [history_snoc]
    exact (h.inOrder (hps hlog) key).next fits steps h.inv (h.ordered (hps hlog)) (hnow hlog)

theorem run_requests [DecidableEq B] (h : PortCore.new = some core)
    (table : CapabilityTable N) (ops : List (PortOp B)) :
    Requests (trace portStep ⟨core, table⟩ ops) (run portStep ⟨core, table⟩ ops).core := by
  obtain ⟨fits, rfl⟩ := new_eq h
  exact run_induction portStep
    (P := fun log s => Requests log s.core) .new (fun log s op hlog => hlog.next fits op) ops

/-- **Requests reach the server once, in order.** In every run from a fresh core: no connection id is
issued twice; of each connection the server sees requests and then at most one notice; what it
receives are messages that were sent, with the sender the kernel recorded; as long as the connection
is open nothing is lost, and once it has ended nothing of it is queued any more. Unless a sequence
counter wraps, every port delivers in strictly increasing order of the kernel's numbers, and every
connection in the order of its sends. -/
theorem requests_delivered [DecidableEq B] {core : PortCore P C B} (h : PortCore.new = some core)
    (table : CapabilityTable N) (ops : List (PortOp B)) :
    let log := trace portStep ⟨core, table⟩ ops
    let core' := (run portStep ⟨core, table⟩ ops).core
    let sent id := (history log).filterMap (Observation.sentOn id)
    let delivered id := (history log).filterMap (Observation.deliveredOn id)
    (issued PortOutput.connectedId log).Nodup ∧
    (∀ id, LastOnly (fun record : PortRecvRecord => record.kind ≠ .request)
      ((history log).filterMap (Observation.receivedOn id))) ∧
    (∀ id, (delivered id : Multiset Message) ≤ sent id) ∧
    (∀ p c, OpenOn core' p c → (sent (core'.connectionId c) : Multiset Message) =
      delivered (core'.connectionId c) +
        ((core'.ports p).held (core'.connectionId c)).map Request.message) ∧
    (∀ id, (∀ p c, OpenOn core' p c → core'.connectionId c ≠ id) →
      ∀ p, (core'.ports p).held id = 0) ∧
    ((∀ e ∈ log, NoWrap e) →
      (∀ key, ((history log).filterMap (Observation.deliveredAt key)).Pairwise (· < ·)) ∧
      (∀ id, delivered id <+: sent id)) := by
  intro log core' sent delivered
  have fits := (new_eq h).1
  have requests := run_requests h table ops
  refine ⟨connectedIds_nodup fits _ ops, fun id => (requests.seen id).shape, fun id => ?_,
    fun p c on => ?_, fun id hen p => ?_, fun hlog => ⟨fun key => ?_, fun id => ?_⟩⟩
  · obtain ⟨ch, carried⟩ := requests.carried id
    have htk := carried.reachable.conserved.taken
    rwa [carried.puts, carried.takes] at htk
  · obtain ⟨ch, carried⟩ := requests.carried (core'.connectionId c)
    obtain ⟨hop, hqd⟩ := carried.queued c ⟨p, on⟩ rfl
    obtain ⟨queued, hhl, hqu, -⟩ := hqd p on
    have hkp := carried.reachable.conserved.kept (by rw [hop]; simp)
    rwa [carried.puts, carried.takes, hqu, ← Multiset.map_coe, hhl] at hkp
  · refine Multiset.eq_zero_of_forall_notMem fun request hrq => ?_
    obtain ⟨hhl, entry, rfl⟩ := Port.mem_held.1 hrq
    obtain ⟨hlv, hid⟩ := Request.heldBy_iff.1 hhl
    obtain ⟨c, on, hc⟩ := requests.inv.owner p entry hlv
    exact hen p c on (hc.symm.trans hid)
  · exact (requests.inOrder hlog key).increasing
  · obtain ⟨ch, carried⟩ := requests.carried id
    have hpr := carried.reachable.conserved.inOrder hlog
    rwa [carried.puts, carried.takes] at hpr

theorem requests_delivered_pendingSession :
    let hist := history (trace portStep soleStart pendingSession)
    let core := (run portStep soleStart pendingSession).core
    let id : ConnectionId := ⟨0, 1⟩
    (hist.filterMap (Observation.sentOn id)).length = 2 ∧
    (hist.filterMap (Observation.deliveredOn id)).length = 1 ∧
    hist.filterMap (Observation.deliveredOn id) <+: hist.filterMap (Observation.sentOn id) ∧
    (hist.filterMap (Observation.sentOn id) : Multiset Message) =
      hist.filterMap (Observation.deliveredOn id) + ((core.ports 0).held id).map Request.message ∧
    (core.ports 0).held ⟨0, 2⟩ = 0 := by
  obtain ⟨-, -, -, hop, hen, hlog⟩ :=
    requests_delivered soleStart_new soleStart.table pendingSession
  have on : OpenOn (run portStep soleStart pendingSession).core 0 0 :=
    ⟨by decide +kernel, by decide +kernel, by decide +kernel⟩
  have hid : (run portStep soleStart pendingSession).core.connectionId 0 = ⟨0, 1⟩ := by
    decide +kernel
  have hot : ∀ p c, OpenOn (run portStep soleStart pendingSession).core p c →
      (run portStep soleStart pendingSession).core.connectionId c ≠ ⟨0, 2⟩ := by
    intro p c _
    rw [Subsingleton.elim c 0]
    decide
  refine ⟨by decide +kernel, by decide +kernel, (hlog (by decide +kernel)).2 _, ?_, hen _ hot 0⟩
  have hkp := hop 0 0 on
  exact hkp

/-- A counter that wraps makes a port deliver number 1 after number `2 ^ 64 - 1`; and an accepted
SEND may be neither delivered nor purged yet. -/
theorem requests_undelivered :
    (∃ ops key, ¬((history (trace portStep soleStart ops)).filterMap
      (Observation.deliveredAt key)).Pairwise (· < ·)) ∧
    ∃ ops id, OpenOn (run portStep soleStart ops).core 0 0 ∧
      (run portStep soleStart ops).core.connectionId 0 = id ∧
      (history (trace portStep soleStart ops)).filterMap (Observation.sentOn id) ≠ [] ∧
      (history (trace portStep soleStart ops)).filterMap (Observation.deliveredOn id) = [] := by
  constructor
  · obtain ⟨ops, hops⟩ := spinning_reached (n := 2 ^ 64 - 2) (by decide)
    refine ⟨ops ++ (round ++ round), ⟨0, 1⟩, fun h => ?_⟩
    have hls : (history (trace portStep (spinning (2 ^ 64 - 1)) (round ++ round))).filterMap
        (deliveredAt ⟨0, 1⟩) = [2 ^ 64 - 1, 1] := by
      decide +kernel
    rw [trace_append, hops, history, map_append, filterMap_append] at h
    have hsf := (pairwise_append.1 h).2.1
    rw [show (trace portStep (spinning (2 ^ 64 - 2 + 1)) (round ++ round)).map observe =
      history (trace portStep (spinning (2 ^ 64 - 1)) (round ++ round)) from rfl, hls] at hsf
    exact absurd hsf (by decide)
  · refine ⟨openSession ++ [.send soleClient soleConnection zeroFrame none], ⟨0, 1⟩, ?_⟩
    exact ⟨⟨by decide +kernel, by decide +kernel, by decide +kernel⟩, by decide +kernel,
      by decide +kernel, by decide +kernel⟩

end CleanSlate.ServicePort
