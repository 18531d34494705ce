import CleanSlate.ServicePort.Verify.History
import CleanSlate.ServicePort.Verify.Wrap

/-!
# Events reach the client

The other direction of a connection is a channel of frames: POST puts and RECV_EVENT takes. A
DISCONNECT lets it drain; everything else that ends the connection shuts it (`Streamed`).
-/

namespace CleanSlate.ServicePort

open Lib PortCore List Observation ConnState
open Function (update update_self update_of_ne update_apply)
open Capability

variable {P C N : Nat} {B : Type} {effects : List (Effect B)} {frame : Frame} {c : Fin C}
  {raw : UInt64} {s : PortSystem P C N B}

/-- What the state of a connection says about its events. -/
def ConnState.phase : ConnState → Channel.Phase
  | .open => .open
  | .serverClosed _ => .draining
  | .free | .closePending _ _ | .serverGone => .shut

theorem ConnState.used_of_phase {state : ConnState} (h : state.phase ≠ .shut) : state ≠ .free := by
  rintro rfl
  exact h rfl

/-! ## One call -/

/-- What a call that shows `obs` does to the events of the connection `id`. -/
inductive EventFlow (id : ConnectionId) (conn conn' : Connection) : Observation → Prop
  | posted {event : QueuedEvent} (accepts : conn.state = .open) (state : conn'.state = conn.state)
      (events : conn'.events.toList = conn.events.toList ++ [event]) :
      EventFlow id conn conn' (.posted id event.frame)
  | returned {event : QueuedEvent} (state : conn'.state = conn.state)
      (events : conn.events.toList = event :: conn'.events.toList) :
      EventFlow id conn conn' (.returned id (frameEvent event))
  | disconnected {reason : UInt32} (accepts : conn.state = .open)
      (state : conn'.state = .serverClosed reason) (events : conn'.events = conn.events) :
      EventFlow id conn conn' (.disconnected id)
  | other {obs : Observation} (state : conn'.state = conn.state)
      (events : conn'.events = conn.events) (notPosted : obs.postedOn id = .none)
      (notReturned : obs.returnedOn id = .none) : EventFlow id conn conn' obs

/-- A connection whose client can read events after a call was opened by it, or could be read
before. -/
inductive StaysReadable (core core' : PortCore P C B) (obs : Observation) (d : Fin C) : Prop
  | opened (connected : obs = .connected (core'.connectionId d))
      (state : (core'.connections d).state = .open)
      (empty : (core'.connections d).events.toList = [])
  | stayed (before : (core.connections d).state.phase ≠ .shut)
      (id : core'.connectionId d = core.connectionId d)
      (flow : EventFlow (core.connectionId d) (core.connections d) (core'.connections d) obs)

variable {core core' : PortCore P C B} {d : Fin C} {obs : Observation} {id : ConnectionId}

theorem Move.staysReadable (hC : C ≤ 65535) (move : Move core obs effects core') (inv : Inv core)
    (h : (core'.connections d).state.phase ≠ .shut) : StaysReadable core core' obs d := by
  have hcn := move.atConnection hC inv d
  have hst : (core.connections d).state.phase ≠ .shut →
      (core'.connections d).generation = (core.connections d).generation →
      EventFlow (core.connectionId d) (core.connections d) (core'.connections d) obs →
      StaysReadable core core' obs d := fun hbf hgen flow =>
    .stayed hbf (connectionId_congr hgen) flow
  have hop : ∀ {p : Fin P}, OpenOn core p d → (core.connections d).state.phase ≠ .shut :=
    fun on => by rw [on.state]; simp [phase]
  generalize hc : core'.connections d = conn at hcn hst h
  cases hcn with
  | kept silent =>
    have hsl := silent (used_of_phase h)
    exact hst h rfl (.other rfl rfl hsl.posted hsl.returned)
  | opened free generation =>
    exact .opened (by rw [connectionId_opened generation (by rw [hc]; rfl)]) (by rw [hc]; rfl)
      (by rw [hc]; rfl)
  | counted on notPosted notReturned =>
    exact hst (hop on) rfl (.other rfl rfl (notPosted _) (notReturned _))
  | @posted p frame on room =>
    have hdp := (PortParams.validate_ok ((inv.ports p).params on.live)).1
    exact hst (hop on) rfl (@EventFlow.posted _ _ _ ⟨(core.ports p).nextSeq, frame⟩ on.state rfl
      ((core.connections d).events.toList_push _ (by omega)))
  | took state pop =>
    refine hst h rfl (.returned rfl ?_)
    rcases (core.connections d).events.pop_eq with ⟨hnn, -⟩ | ⟨a, r, hpop, hls, -⟩
    · rw [hnn] at pop
      cases pop
    · rw [hpop] at pop
      cases pop
      exact hls
  | freed | closed | severed => exact absurd rfl h
  | disconnected on => exact hst (hop on) rfl (.disconnected on.state rfl rfl)

theorem Steps.staysReadable [DecidableEq B] (fits : Fits P C)
    (steps : Steps core obs effects core') (inv : Inv core)
    (h : (core'.connections d).state.phase ≠ .shut) : StaysReadable core core' obs d := by
  refine steps.shows fits (fun hrd => .stayed hrd rfl (.other rfl rfl rfl rfl))
    (fun first second hrd => ?_)
    (fun inv move => move.staysReadable fits.connections.2 inv) inv h
  -- silent moves leave the events of a connection that can still be read
  cases second hrd with
  | opened connected => cases connected
  | stayed hmid hid hfl =>
    cases first hmid with
    | opened connected => cases connected
    | stayed before id flow =>
      cases flow with
      | other state events =>
        cases hfl with
        | other state' events' =>
          exact .stayed before (hid.trans id)
            (.other (state'.trans state) (events'.trans events) rfl rfl)

/-! ## What an observation says about the connections -/

/-- A POST is accepted on an open connection, which stays so. -/
theorem Steps.postedOn_open [DecidableEq B] (steps : Steps core obs effects core')
    (h : obs.postedOn id = some frame) :
    ∃ c, (core'.connections c).state = .open ∧ core'.connectionId c = id := by
  cases steps with
  | path => cases h
  | move move =>
    cases move with
    | @post p c _ on room =>
      simp only [postedOn] at h
      split at h
      · next hid =>
        refine ⟨c, ?_, (connectionId_write (by rfl) c).trans hid⟩
        rw [postEvent, setConnection_connections, update_self]
        exact on.state
      · cases h
    | _ => cases h

/-- What RECV_EVENT says about the connection: a frame leaves it readable, a terminal event frees
it, and `Disconnected` comes when there is nothing left to read. -/
structure Returned (core core' : PortCore P C B) (c : Fin C) (record : PortEventRecord) : Prop where
  used : (core.connections c).state ≠ .free
  id : core'.connectionId c = core.connectionId c
  frame : record.kind = .frame → (core'.connections c).state.phase ≠ .shut
  terminal : record.kind ≠ .frame → (core'.connections c).state = .free
  drained : record.kind = .disconnected → (core.connections c).state.phase = .draining ∧
    (core.connections c).events.toList = []

theorem Steps.returnedOn_used [DecidableEq B] (steps : Steps core obs effects core')
    {record : PortEventRecord} (h : obs.returnedOn id = some record) :
    ∃ c, core.connectionId c = id ∧ Returned core core' c record := by
  cases steps with
  | path => cases h
  | move move =>
    cases move with
    | @takeEvent c event events state pop =>
      simp only [returnedOn] at h
      split at h
      · next hid =>
        cases h
        have hph : (core.connections c).state.phase ≠ .shut := by
          rcases state with hs | ⟨reason, hs⟩ <;> simp [hs, phase]
        refine ⟨c, hid, used_of_phase hph,
          connectionId_setConnection core c (by rfl) c, fun _ => ?_,
          fun hkn => absurd rfl hkn, fun hkn => by cases hkn⟩
        rw [setEvents, setConnection_connections, update_self]
        exact hph
      · cases h
    | @finish c record terminal =>
      simp only [returnedOn] at h
      split at h
      · next hid =>
        cases h
        refine ⟨c, hid, terminal.used, connectionId_setConnection core c (by rfl) c,
          fun hkn => ?_, fun _ => ?_, fun hkn => ?_⟩
        · cases terminal <;> cases hkn
        · rw [freeConnection, setConnection_connections, update_self]
          rfl
        · cases terminal with
          | disconnected state drained => exact ⟨by rw [state]; rfl, drained⟩
          | serverGone => cases hkn
      · cases h
    | _ => cases h

/-- What a history says about the events of the connection `id`. -/
abbrev EventsSeen (hist : List Observation) (core : PortCore P C B) (id : ConnectionId) : Prop :=
  Seen (Observation.postedOn id) (Observation.returnedOn id)
    (fun record : PortEventRecord => record.kind ≠ .frame) hist core id

theorem EventsSeen.next [DecidableEq B] (fits : Fits P C)
    (steps : Steps core obs effects core') (inv : Inv core) (inv' : Inv core')
    {hist : List Observation} (h : EventsSeen hist core id) :
    EventsSeen (hist ++ [obs]) core' id := by
  refine Seen.next fits steps inv inv' (fun frame hobs => ?_) (fun record hobs => ?_) h
  · obtain ⟨c, hop, hid⟩ := steps.postedOn_open hobs
    exact ⟨c, by rw [hop]; simp, hid⟩
  · obtain ⟨c, hid, returned⟩ := steps.returnedOn_used hobs
    exact ⟨c, returned.used, hid, returned.id.trans hid, returned.terminal⟩

/-! ## The events of a connection as a channel -/

theorem Observation.frameOn_eq_some (h : obs.frameOn id = some frame) :
    ∃ record, obs.returnedOn id = some record ∧ record.kind = .frame := by
  unfold frameOn at h
  split at h
  · next record hrc =>
    split at h
    · next hkn => exact ⟨record, hrc, hkn⟩
    · cases h
  · cases h

theorem Observation.frameOn_eq_none (h : obs.returnedOn id = .none) : obs.frameOn id = .none := by
  rw [frameOn, h]

/-- What a call shows of a connection that stays readable is a step of its channel. -/
theorem EventFlow.channel {conn conn' : Connection} (flow : EventFlow id conn conn' obs)
    {ch : Channel Frame} (hrc : Channel.Reachable True ch) (hph : ch.phase = conn.state.phase)
    (hqu : ch.queue = conn.events.toList.map QueuedEvent.frame) :
    ∃ ch', Channel.Reachable True ch' ∧ ch'.phase = conn'.state.phase ∧
      ch'.queue = conn'.events.toList.map QueuedEvent.frame ∧
      ch'.puts = ch.puts ++ (obs.postedOn id).toList ∧
      ch'.takes = ch.takes ++ (obs.frameOn id).toList := by
  cases flow with
  | @posted event accepts state events =>
    have hop : ch.phase = .open := by
      rw [hph, accepts]
      rfl
    refine ⟨_, hrc.step (.put event.frame hop), ?_, ?_, by simp [postedOn],
      by simp [frameOn, returnedOn]⟩
    · rw [state]
      exact hph
    · rw [events, map_append, ← hqu]
      rfl
  | @returned event state events =>
    have hsp : ch.queue = [] ++ event.frame :: conn'.events.toList.map QueuedEvent.frame := by
      rw [hqu, events]
      rfl
    refine ⟨_, hrc.step (.take hsp fun _ => rfl), ?_, rfl, by simp [postedOn],
      by simp [frameOn, returnedOn, frameEvent]⟩
    rw [state]
    exact hph
  | @disconnected reason accepts state events =>
    have hop : ch.phase = .open := by
      rw [hph, accepts]
      rfl
    refine ⟨_, hrc.step (.drain hop), by rw [state]; rfl, by rw [events]; exact hqu,
      by simp [postedOn], by simp [frameOn, returnedOn]⟩
  | other state events notPosted notReturned =>
    refine ⟨ch, hrc, by rw [state, hph], by rw [events, hqu], ?_, ?_⟩
    · rw [notPosted]
      simp
    · rw [frameOn_eq_none notReturned]
      simp

/-- The client of connection `c` can read its events. -/
def Readable (core : PortCore P C B) (c : Fin C) : Prop := (core.connections c).state.phase ≠ .shut

/-- The events of the connection `id` as a channel, which is drained when `Disconnected` is
returned. -/
abbrev Streamed (hist : List Observation) (core : PortCore P C B) (id : ConnectionId) :
    Channel Frame → Prop :=
  Conveyed (postedOn id) (frameOn id)
    (fun hist => ∃ record ∈ hist.filterMap (returnedOn id), record.kind = .disconnected) Readable
    (fun _ core c ch => ch.phase = (core.connections c).state.phase ∧
      ch.queue = (core.connections c).events.toList.map QueuedEvent.frame) True hist core id

theorem Streamed.next [DecidableEq B] {hist : List Observation} {ch : Channel Frame}
    (fits : Fits P C) (steps : Steps core obs effects core') (inv : Inv core)
    (inv' : Inv core') (seen : EventsSeen hist core id) (h : Streamed hist core id ch) :
    ∃ ch', Streamed (hist ++ [obs]) core' id ch' := by
  refine Conveyed.next fits steps inv' (fun hf => hf) seen (fun _ => ⟨rfl, rfl⟩) frameOn_eq_none
    used_of_phase (fun frame hobs => ?_) (fun frame hobs => ?_) (fun c hrd hid => ?_)
    (fun ⟨record, hrc, hkn⟩ => ⟨fun c hrd hid => ?_, ?_⟩) h
  · obtain ⟨c, hop, hid⟩ := steps.postedOn_open hobs
    exact ⟨c, by simp [Readable, hop, phase], hid⟩
  · obtain ⟨record, hrc, hkn⟩ := frameOn_eq_some hobs
    obtain ⟨c, hid, returned⟩ := steps.returnedOn_used hrc
    exact ⟨c, returned.frame hkn, returned.id.trans hid⟩
  · subst hid
    cases steps.staysReadable fits inv hrd with
    | opened connected state empty =>
      exact .opened connected ⟨by rw [state]; rfl, by rw [empty]; rfl⟩
    | stayed before hsm flow =>
      rw [← hsm] at flow
      refine .stayed before hsm fun ch hrc ⟨hph, hqu⟩ => ?_
      obtain ⟨ch', hrc', hph', hqu', hpt', htk'⟩ := flow.channel hrc hph hqu
      exact ⟨ch', hrc', ⟨hph', hqu'⟩, hpt', htk'⟩
  · -- a terminal event would have freed the connection
    have hfr := (EventsSeen.next fits steps inv inv' seen).used c (used_of_phase hrd) hid record hrc
    rw [hkn] at hfr
    exact hfr (by simp)
  · rw [filterMap_snoc, mem_append, Option.mem_toList] at hrc
    rcases hrc with hrc | hrc
    · exact .inl ⟨record, hrc, hkn⟩
    -- nothing is queued when `Disconnected` is returned
    obtain ⟨c, hid, returned⟩ := steps.returnedOn_used hrc
    obtain ⟨hdr, hem⟩ := returned.drained hkn
    refine .inr ⟨c, by simp [Readable, hdr], hid, fun ch hrc ⟨hph, hqu⟩ => ?_⟩
    rw [hrc.conserved.keptInOrder trivial (by rw [hph, hdr]; simp), hqu, hem, map_nil, append_nil]

/-! ## Calls on an id whose connection has ended -/

theorem PortCore.connectionIndex_stale (hC : C ≤ 65535)
    (hraw : SlotGenerationId.decode raw = .ok id)
    (h : ∀ c, (core.connections c).state ≠ .free → core.connectionId c ≠ id) :
    core.connectionIndex raw = .error .stale := by
  cases hin : core.connectionIndex raw with
  | ok c =>
    obtain ⟨hus, -, hdc⟩ := (connectionIndex_ok hC).1 hin
    rw [hraw] at hdc
    cases hdc
    exact absurd rfl (h c hus)
  | error error =>
    unfold PortCore.connectionIndex at hin
    rw [hraw] at hin
    simp only at hin
    split at hin
    · split at hin
      · cases hin
        rfl
      · cases hin
    · cases hin
      rfl

/-- Every call of a process on the connection `raw` fails as stale; those of a server do so once its
authority over a port is established. -/
structure StaleCalls [DecidableEq B] (s : PortSystem P C N B) (raw : UInt64) : Prop where
  send : ∀ caller frame transfer, caller.isProcess →
    (portStep s (.send caller raw frame transfer)).1.result = .sent (.error .stale)
  recvEvent : ∀ caller, caller.isProcess →
    (portStep s (.recvEvent caller raw)).1.result = .event (.error .stale)
  close : ∀ caller reason, caller.isProcess →
    (portStep s (.close caller raw reason)).1.result = .closed (.error .stale)
  post : ∀ caller serve frame p, s.core.authorizeServe s.table caller serve = .ok p →
    (portStep s (.post caller serve raw frame)).1.result = .posted (.error .stale)
  disconnect : ∀ caller serve reason p, s.core.authorizeServe s.table caller serve = .ok p →
    (portStep s (.disconnect caller serve raw reason)).1.result = .disconnected (.error .stale)

theorem StaleCalls.of_index [DecidableEq B] (h : s.core.connectionIndex raw = .error .stale) :
    StaleCalls s raw := by
  have hcl : ∀ caller, caller.isProcess → s.core.clientConnection caller raw = .error .stale := by
    intro caller hcr
    simp only [PortCore.clientConnection, hcr, h, Bool.not_true, Bool.false_eq_true, if_false]
  have hsr : ∀ p, s.core.servedConnection p raw = .error .stale := by
    intro p
    simp only [PortCore.servedConnection, h]
  refine ⟨fun caller frame transfer hcr => ?_, fun caller hcr => ?_,
    fun caller reason hcr => ?_, fun caller serve frame p hp => ?_,
    fun caller serve reason p hp => ?_⟩
  · simp only [portStep, ServicePort.send, PortSystem.call, hcl caller hcr]
    rfl
  · simp only [portStep, ServicePort.recvEvent, PortSystem.call, hcl caller hcr]
    rfl
  · simp only [portStep, ServicePort.close, PortSystem.call, hcl caller hcr]
    rfl
  · simp only [portStep, ServicePort.post, PortSystem.call, hp, hsr p]
    rfl
  · simp only [portStep, ServicePort.disconnect, PortSystem.call, hp, hsr p]
    rfl

/-! ## Whole runs -/

/-- What a history and the state it leads to have in common. -/
structure Events (log : List (PortEvent P C N B)) (core : PortCore P C B) : Prop where
  inv : Inv core
  seen : ∀ id, EventsSeen (history log) core id
  streamed : ∀ id, ∃ ch, Streamed (history log) core id ch

theorem Events.new : Events ([] : List (PortEvent P C N B))
    (⟨fun _ => .empty, fun _ => .empty⟩ : PortCore P C B) where
  inv := .new
  seen _ := .new
  streamed _ := ⟨.new, .new, rfl, rfl, fun _ hc => absurd rfl hc, fun _ => .inr rfl,
    fun ⟨_, hrc, _⟩ => (nomatch hrc)⟩

theorem Events.next [DecidableEq B] (fits : Fits P C) {log : List (PortEvent P C N B)}
    (h : Events log s.core) (op : PortOp B) :
    Events (log ++ [Event.of portStep s op]) (portStep s op).2.core := by
  have steps := portStep_steps fits s op
  have inv' := steps.inv fits h.inv
  refine ⟨inv', fun id => ?_, fun id => ?_⟩
  · rw [history_snoc]
    exact EventsSeen.next fits steps h.inv inv' (h.seen id)
  · obtain ⟨ch, streamed⟩ := h.streamed id
    rw [history_snoc]
    exact streamed.next fits steps h.inv inv' (h.seen id)

theorem run_events [DecidableEq B] (h : PortCore.new = some core) (table : CapabilityTable N)
    (ops : List (PortOp B)) :
    Events (trace portStep ⟨core, table⟩ ops) (run portStep ⟨core, table⟩ ops).core := by
  obtain ⟨fits, rfl⟩ := new_eq h
  exact run_induction portStep
    (P := fun log s => Events log s.core) .new (fun log s op hlog => hlog.next fits op) ops

/-- **Events reach the client in order.** In every run from a fresh core and for every connection:
the frames its client reads are a prefix of those its server posted; as long as the connection is
open, and after its server disconnected it, what was posted was read or is still queued; at most one
terminal event is read, and it comes last; before `Disconnected` everything posted was read; and
after a terminal event every call on the id is stale. -/
theorem events_returned [DecidableEq B] {core : PortCore P C B} (h : PortCore.new = some core)
    (table : CapabilityTable N) (ops : List (PortOp B)) :
    let hist := history (trace portStep ⟨core, table⟩ ops)
    let s' := run portStep ⟨core, table⟩ ops
    let posted id := hist.filterMap (Observation.postedOn id)
    let returned id := hist.filterMap (Observation.returnedOn id)
    let frames id := hist.filterMap (Observation.frameOn id)
    (∀ id, frames id <+: posted id) ∧
    (∀ c, ((s'.core.connections c).state = .open ∨
        ∃ reason, (s'.core.connections c).state = .serverClosed reason) →
      posted (s'.core.connectionId c) = frames (s'.core.connectionId c) ++
        (s'.core.connections c).events.toList.map QueuedEvent.frame) ∧
    (∀ id, LastOnly (fun record : PortEventRecord => record.kind ≠ .frame) (returned id)) ∧
    (∀ id, ∀ record ∈ returned id, record.kind = .disconnected → frames id = posted id) ∧
    (∀ id, ∀ record ∈ returned id, record.kind ≠ .frame →
      ∀ raw, SlotGenerationId.decode raw = .ok id → StaleCalls s' raw) := by
  intro hist s' posted returned frames
  have fits := (new_eq h).1
  have events := run_events h table ops
  refine ⟨fun id => ?_, fun c hc => ?_, fun id => (events.seen id).shape, fun id record hrc hkn =>
    ?_, fun id record hrc hkn raw hraw => ?_⟩
  · obtain ⟨ch, streamed⟩ := events.streamed id
    have hpr := streamed.reachable.conserved.inOrder trivial
    rwa [streamed.puts, streamed.takes] at hpr
  · obtain ⟨ch, streamed⟩ := events.streamed (s'.core.connectionId c)
    have hph : (s'.core.connections c).state.phase ≠ .shut := by
      rcases hc with hs | ⟨reason, hs⟩ <;> simp [hs, ConnState.phase]
    obtain ⟨hch, hqu⟩ := streamed.queued c hph rfl
    have hkp := streamed.reachable.conserved.keptInOrder trivial (by rwa [hch])
    rwa [streamed.puts, streamed.takes, hqu] at hkp
  · obtain ⟨ch, streamed⟩ := events.streamed id
    have hcm := streamed.complete ⟨record, hrc, hkn⟩
    rw [streamed.puts, streamed.takes] at hcm
    exact hcm.symm
  · refine .of_index (connectionIndex_stale fits.connections.2 hraw fun c hus hid => ?_)
    exact (events.seen id).used c hus hid record hrc hkn

/-- A session whose server posts two frames and disconnects, and whose client reads one frame and,
in `closedSession`, the rest. -/
def drainingSession : List (PortOp Unit) :=
  openSession ++ [.post soleServer soleServe soleConnection zeroFrame,
    .post soleServer soleServe soleConnection zeroFrame,
    .disconnect soleServer soleServe soleConnection 0, .recvEvent soleClient soleConnection]

def closedSession : List (PortOp Unit) :=
  drainingSession ++ [.recvEvent soleClient soleConnection, .recvEvent soleClient soleConnection]

theorem events_returned_closedSession :
    let id : ConnectionId := ⟨0, 1⟩
    let draining := history (trace portStep soleStart drainingSession)
    let closed := history (trace portStep soleStart closedSession)
    (draining.filterMap (Observation.frameOn id)).length = 1 ∧
    draining.filterMap (Observation.postedOn id) = draining.filterMap (Observation.frameOn id) ++
      ((run portStep soleStart drainingSession).core.connections 0).events.toList.map
        QueuedEvent.frame ∧
    closed.filterMap (Observation.frameOn id) = closed.filterMap (Observation.postedOn id) ∧
    StaleCalls (run portStep soleStart closedSession) soleConnection := by
  have heta : ⟨soleStart.core, soleStart.table⟩ = soleStart := rfl
  have hdr := (events_returned soleStart_new soleStart.table drainingSession).2.1 0
    (.inr ⟨0, by decide +kernel⟩)
  obtain ⟨-, -, -, hcm, hst⟩ := events_returned soleStart_new soleStart.table closedSession
  have hmem : ⟨.disconnected, 0, 3, zeroFrame⟩ ∈ (history (trace portStep
      soleStart closedSession)).filterMap (Observation.returnedOn ⟨0, 1⟩) := by
    decide +kernel
  have hid : (run portStep soleStart drainingSession).core.connectionId 0 = ⟨0, 1⟩ := by
    decide +kernel
  refine ⟨by decide +kernel, ?_, hcm _ _ hmem rfl, hst _ _ hmem (by decide) _ (by decide +kernel)⟩
  simp only [heta, hid] at hdr
  exact hdr

/-- A frame that is queued when its port is torn down is never returned; and after the terminal
event a former server is refused before its connection is looked at. -/
theorem events_discarded : ∃ ops, ∃ id : ConnectionId,
    let hist := history (trace portStep soleStart ops)
    hist.filterMap (Observation.postedOn id) ≠ [] ∧
    hist.filterMap (Observation.frameOn id) = [] ∧
    (hist.filterMap (Observation.returnedOn id)).map PortEventRecord.kind = [.serverGone] ∧
    SlotGenerationId.decode soleConnection = .ok id ∧
    (ServicePort.post (run portStep soleStart ops).call soleServer soleServe soleConnection
      zeroFrame).1 = .error .denied :=
  ⟨openSession ++ [.post soleServer soleServe soleConnection zeroFrame, .unregister ⟨0, 1⟩,
    .recvEvent soleClient soleConnection], ⟨0, 1⟩, by decide +kernel, by decide +kernel,
    by decide +kernel, by decide +kernel, by decide +kernel⟩

end CleanSlate.ServicePort
