import CleanSlate.Network.Tcp.Life

/-!
# Slots of the transport

A transport does nothing to a connection but what the steps of its life say: a call on the transport
maps every slot by the steps of the connection in it (`step_slot`), and `connect` fills a free slot
with a connection as it was opened. So every connection of a transport is one that some life leads
to, and what is proved of lives holds in the table.
-/

namespace CleanSlate.Network.Tcp

open Lib Function List

variable {owner : TrustedCaller} {j : Fin maxTcpConnections} {c : TcpConnection} {Q : ConnOp → Prop}
  {now : Nat}

/-- The steps that a call makes on a slot. -/
def TcpOp.Makes : TcpOp → ConnOp → Prop
  | .send now _ _ data, .send now' data' _ => now' = now ∧ data' = data
  | .receive _ _ cap, .receive cap' => cap' = cap
  | .close now _ _, .close now' _ => now' = now
  | .abort .., .free => True
  | .onHolderExit _, .free => True
  | .reset, .free => True
  | .poll now frames, .deliver now' seg payload _ =>
    now' = now ∧ ∃ src, .ok (.tcp src seg payload) ∈ frames
  | .poll now _, .pollTimers now' _ => now' = now
  | .poll now _, .pollOutput now' _ => now' = now
  | _, _ => False

/-- The owner a call is made for. -/
def TcpOp.caller : TcpOp → Option TrustedCaller
  | .connect _ owner _ | .send _ _ owner _ | .receive _ owner _ | .close _ _ owner
  | .abort _ owner | .onHolderExit owner => some owner
  | .reset | .poll .. => none

namespace TcpConnection

/-! ## What a step hands to the stack -/

section

variable (c : TcpConnection) (now : Nat) (link : Link) (segment : TcpSegment) (payload : List UInt8)

theorem transmit_sent (dst : Ipv4Addr) :
    (link.transmit dst segment payload).2.sent = link.sent ++ [⟨dst, segment, payload⟩] := by
  unfold Link.transmit
  split <;> rfl

theorem transmitTcp_sent : (c.transmitTcp segment payload link).2.2.sent =
    link.sent ++ [⟨c.remote.addr, segment, payload⟩] := by
  rw [← transmit_sent]
  unfold transmitTcp
  split <;> next heq => rw [heq]

theorem sendSyn_sent : (c.sendSyn now link).2.2.sent =
    link.sent ++ [⟨c.remote.addr, synSegment c.localAddr.port c.remote.port c.iss, []⟩] := by
  rw [← transmit_sent]
  unfold sendSyn
  dsimp only
  split <;> next heq => exact congrArg (·.2.sent) heq.symm

theorem transmitTcp_grows : link.sent ⊆ (c.transmitTcp segment payload link).2.2.sent := by
  rw [transmitTcp_sent]
  exact subset_append_left _ _

theorem trySendData_grows : link.sent ⊆ (c.trySendData now link).2.2.sent := by
  unfold trySendData
  split
  · exact Subset.refl _
  · exact transmitTcp_grows ..

theorem retransmitAt_grows : link.sent ⊆ (c.retransmitAt now link).2.2.sent := by
  unfold retransmitAt
  split
  · exact Subset.refl _
  · next segment payload _ =>
    have htr := transmitTcp_grows c link segment payload
    split <;> rename_i heq <;> rw [heq] at htr <;> exact htr

/-- The segments handed over when a poll makes a step on a slot, and after it. -/
def sentBefore : ConnOp → List Outbound
  | .deliver _ _ _ link | .pollTimers _ link | .pollOutput _ link => link.sent
  | _ => []

def sentAfter : ConnOp → List Outbound
  | .deliver now seg payload link => (c.deliver now seg payload link).2.2.sent
  | .pollTimers now link => (c.pollTimers now link).2.2.sent
  | .pollOutput now link => (c.pollOutput now link).2.sent
  | _ => []

theorem sent_grows (op : ConnOp) : sentBefore op ⊆ sentAfter c op := by
  cases op with
  | deliver now seg payload link =>
    unfold sentAfter deliver
    dsimp only
    split
    · next c' _ =>
      have hak : link.sent ⊆ (c'.sendAck link).2.2.sent := transmitTcp_grows ..
      split <;> rename_i heq <;> rw [heq] at hak <;> exact hak
    · exact trySendData_grows ..
    all_goals exact Subset.refl _
  | pollTimers now link =>
    unfold sentAfter pollTimers
    dsimp only
    split
    · exact retransmitAt_grows ..
    all_goals exact Subset.refl _
  | pollOutput now link =>
    have hsn : link.sent ⊆ (c.sendSyn now link).2.2.sent := by
      rw [sendSyn_sent]
      exact subset_append_left _ _
    unfold sentAfter pollOutput
    dsimp only
    split
    · split <;> rename_i heq <;> rw [heq] at hsn <;> exact hsn
    · split
      · exact trySendData_grows ..
      · exact Subset.refl _
  | _ => exact nil_subset _

end

end TcpConnection

namespace TcpTransport

open TcpConnection (sentBefore sentAfter sent_grows)

variable (s : TcpTransport) (i : Fin maxTcpConnections)

theorem slots_set (j : Fin maxTcpConnections) (conn : Option TcpConnection) :
    (s.set j conn).table.slots i = if i = j then conn else s.table.slots i :=
  update_apply ..

theorem slots_of_checkId {id : SessionId} (h : s.table.checkId id owner = .ok (j, c)) :
    s.table.slots j = some c ∧ c.owner = owner := by
  unfold TcpTable.checkId at h
  split at h
  · cases h
  split at h
  · split at h
    · cases h
    next hsl =>
    split at h
    · cases h
    · next how =>
      cases h
      exact ⟨hsl, not_not.1 how⟩
  · cases h

theorem slot_step (h : s.table.slots j = some c) (op : ConnOp) (hop : Q op) :
    LeadsTo TcpConnection.step Q (s.table.slots i) ((s.set j (c.apply op).2).table.slots i) := by
  rw [slots_set]
  split
  · next hij =>
    rw [hij, h]
    exact .single hop
  · exact .refl

/-! ## Polls -/

/-- What holds between the states of a slot, with the segments handed over so far, if it holds over
each step that a poll makes on it. -/
structure PollRule (Q : ConnOp → Prop)
    (R : Option TcpConnection → List Outbound → Option TcpConnection → List Outbound → Prop) :
    Prop where
  grows : ∀ {slot sent sent'}, sent ⊆ sent' → R slot sent slot sent'
  trans : ∀ {slot sent slot' sent' slot'' sent''}, R slot sent slot' sent' →
    R slot' sent' slot'' sent'' → R slot sent slot'' sent''
  step : ∀ c op, Q op → R (some c) (sentBefore op) (c.apply op).2 (sentAfter c op)

variable {R : Option TcpConnection → List Outbound → Option TcpConnection → List Outbound → Prop}

section Loops
variable (rule : PollRule Q R)
include rule

theorem PollRule.slot (h : s.table.slots j = some c) (op : ConnOp) (hop : Q op) :
    R (s.table.slots i) (sentBefore op) ((s.set j (c.apply op).2).table.slots i)
      (sentAfter c op) := by
  rw [slots_set]
  split
  · next hij =>
    rw [hij, h]
    exact rule.step c op hop
  · exact rule.grows (sent_grows c op)

theorem PollRule.pollFrames (frames : List (Except NetworkError Inbound))
    (hQ : ∀ src seg payload link, .ok (.tcp src seg payload) ∈ frames →
      Q (.deliver now seg payload link)) (link : Link) :
    R (s.table.slots i) link.sent ((s.pollFrames now link frames).2.1.table.slots i)
      (s.pollFrames now link frames).2.2.sent := by
  induction frames generalizing s link with
  | nil => exact rule.grows (Subset.refl _)
  | cons head frames ih =>
    cases head with
    | error e => exact rule.grows (Subset.refl _)
    | ok frame =>
      have hfr : R (s.table.slots i) link.sent ((s.pollFrame now frame link).2.1.table.slots i)
          (s.pollFrame now frame link).2.2.sent := by
        unfold pollFrame
        split
        · exact rule.grows (Subset.refl _)
        next src seg payload =>
        split
        · exact rule.grows (Subset.refl _)
        split
        · exact rule.grows (Subset.refl _)
        · next c hsl =>
          exact rule.slot s i hsl (.deliver now seg payload link)
            (hQ src seg payload link mem_cons_self)
      unfold pollFrames
      split <;> rename_i heq <;> rw [heq] at hfr
      · exact hfr
      · exact rule.trans hfr (ih _ (fun src seg payload link hmem =>
          hQ src seg payload link (mem_cons_of_mem _ hmem)) _)

theorem PollRule.pollTimers (hQ : ∀ link, Q (.pollTimers now link)) (link : Link)
    (indices : List (Fin maxTcpConnections)) :
    R (s.table.slots i) link.sent ((s.pollTimers now link indices).2.1.table.slots i)
      (s.pollTimers now link indices).2.2.sent := by
  induction indices generalizing s link with
  | nil => exact rule.grows (Subset.refl _)
  | cons j rest ih =>
    unfold TcpTransport.pollTimers
    split
    · exact ih s link
    next c hsl =>
    have hst := rule.slot s i hsl (.pollTimers now link) (hQ link)
    dsimp only [TcpConnection.apply, sentAfter] at hst
    split <;> rename_i heq <;> rw [heq] at hst
    · exact hst
    · exact rule.trans hst (ih _ _)

theorem PollRule.pollOutput (hQ : ∀ link, Q (.pollOutput now link)) (link : Link)
    (indices : List (Fin maxTcpConnections)) :
    R (s.table.slots i) link.sent ((indices.foldl (pollOutput now) (s, link)).1.table.slots i)
      (indices.foldl (pollOutput now) (s, link)).2.sent := by
  induction indices generalizing s link with
  | nil => exact rule.grows (Subset.refl _)
  | cons j rest ih =>
    refine rule.trans ?_ (ih (TcpTransport.pollOutput now (s, link) j).1 _)
    unfold TcpTransport.pollOutput
    dsimp only
    split
    · exact rule.grows (Subset.refl _)
    · next c hsl => exact rule.slot s i hsl (.pollOutput now link) (hQ link)

end Loops

theorem PollRule.poll {frames : List (Except NetworkError Inbound)}
    (rule : PollRule (TcpOp.poll now frames).Makes R) (link : Link) :
    R (s.table.slots i) link.sent ((s.poll now frames link).2.1.table.slots i)
      (s.poll now frames link).2.2.sent := by
  have hfr := rule.pollFrames s i (frames.take tcpPollRxBudget)
    (fun src _ _ _ hmem => ⟨rfl, src, mem_of_mem_take hmem⟩) link
  unfold TcpTransport.poll
  split <;> rename_i heq <;> rw [heq] at hfr
  · exact hfr
  next s₁ link₁ =>
  have htm := rule.pollTimers s₁ i (fun _ => rfl) link₁ (finRange maxTcpConnections)
  split <;> rename_i heq' <;> rw [heq'] at htm
  · exact rule.trans hfr htm
  · exact rule.trans (rule.trans hfr htm) (rule.pollOutput _ i (fun _ => rfl) _ _)

theorem poll_slot (now : Nat) (frames : List (Except NetworkError Inbound)) (link : Link) :
    LeadsTo TcpConnection.step (TcpOp.poll now frames).Makes (s.table.slots i)
      ((s.poll now frames link).2.1.table.slots i) :=
  PollRule.poll (R := fun slot _ slot' _ => LeadsTo TcpConnection.step _ slot slot') s i
    ⟨fun _ => .refl, .trans, fun _ _ hop => .single hop⟩ link

/-! ## Calls -/

theorem onHolderExit_slot (owner : TrustedCaller) (link : Link) :
    LeadsTo TcpConnection.step (· = .free) (s.table.slots i)
      ((s.onHolderExit owner link).2.1.table.slots i) := by
  refine Slots.foldl_induction (exitSlot owner) (fun _ acc => LeadsTo TcpConnection.step (· = .free)
    (s.table.slots i) (acc.2.1.table.slots i)) (0, s, link) .refl fun j acc h => h.trans ?_
  unfold exitSlot
  dsimp only
  split
  · exact .refl
  · next c hsl =>
    split
    · exact acc.2.1.slot_step i hsl .free rfl
    · exact .refl

theorem connect_slot (now : Nat) (owner : TrustedCaller) (remote : SocketAddrV4) (link : Link) :
    (s.connect now owner remote link).2.1.table.slots i = s.table.slots i ∨
      (s.table.slots i = none ∧ (s.connect now owner remote link).1 =
          .ok (.new s.table.generation (UInt32.ofNat i)) ∧
        ∃ o : Opening, o.now = now ∧ o.remote = remote ∧ o.owner = owner ∧
          (s.connect now owner remote link).2.1.table.slots i = some o.conn) := by
  unfold connect TcpTable.allocSlot
  cases hfr : Slots.position (·.isNone) s.table.slots with
  | none => exact .inl rfl
  | some j =>
    by_cases hij : i = j
    · subst hij
      have hnn : s.table.slots i = none := Option.isNone_iff_eq_none.1 (Slots.position_some hfr)
      refine .inr ⟨hnn, rfl, ⟨owner, ⟨s.ourIp, ephemeralPortBase + UInt16.ofNat i⟩, remote,
        deterministicIss s.table.generation (UInt32.ofNat i) s.table.issCounter, now, link⟩, rfl,
        rfl, rfl, ?_⟩
      exact update_self ..
    · refine .inl ?_
      change update (update s.table.slots j _) j _ i = _
      rw [update_of_ne hij, update_of_ne hij]

/-- A call for an owner is an exit, an open, or a step of the connection its id names. -/
theorem step_call (op : TcpOp × List (Except NetworkError Unit)) (hcl : op.1.caller = some owner) :
    op.1 = .onHolderExit owner ∨ (∃ now remote, op.1 = .connect now owner remote) ∨
    ∃ (id : SessionId) (fail : NetworkError → TcpReply) (reply : TcpConnection → TcpReply)
      (makes : ConnOp), op.1.Makes makes ∧
      ∀ s : TcpTransport, s.step op = match s.table.checkId id owner with
        | .error error => (fail error, s)
        | .ok (j, c) => (reply c, s.set j (c.apply makes).2) := by
  obtain ⟨op, answers⟩ := op
  cases op with
  | connect now owner' remote =>
    cases hcl
    exact .inr (.inl ⟨now, remote, rfl⟩)
  | send now id owner' data =>
    cases hcl
    refine .inr (.inr ⟨id, fun error => .sent (.error error),
      fun c => .sent (c.send now data ⟨answers, []⟩).1, .send now data ⟨answers, []⟩, ⟨rfl, rfl⟩,
      fun s => ?_⟩)
    simp only [step, send]
    cases s.table.checkId id owner <;> rfl
  | receive id owner' cap =>
    cases hcl
    refine .inr (.inr ⟨id, fun error => .received (.error error),
      fun c => .received (c.receive cap).1, .receive cap, rfl, fun s => ?_⟩)
    simp only [step, receive]
    cases s.table.checkId id owner <;> rfl
  | close now id owner' =>
    cases hcl
    refine .inr (.inr ⟨id, fun error => .closed (.error error),
      fun c => .closed (c.close now ⟨answers, []⟩).1, .close now ⟨answers, []⟩, rfl, fun s => ?_⟩)
    simp only [step, close]
    cases s.table.checkId id owner <;> rfl
  | abort id owner' =>
    cases hcl
    refine .inr (.inr ⟨id, fun error => .aborted (.error error), fun _ => .aborted (.ok ()), .free,
      trivial, fun s => ?_⟩)
    simp only [step, abort]
    cases s.table.checkId id owner <;> rfl
  | onHolderExit owner' =>
    cases hcl
    exact .inl rfl
  | reset | poll => cases hcl

theorem step_slot (op : TcpOp × List (Except NetworkError Unit)) :
    LeadsTo TcpConnection.step op.1.Makes (s.table.slots i) ((s.step op).2.table.slots i) ∨
    (s.table.slots i = none ∧ ∃ o : Opening, (s.step op).2.table.slots i = some o.conn) := by
  cases hcl : op.1.caller with
  | some owner =>
    rcases step_call op hcl with hop | ⟨now, remote, hop⟩ | ⟨id, fail, reply, makes, hmk, hst⟩
    · obtain ⟨ops, hrun, hops⟩ := s.onHolderExit_slot i owner ⟨op.2, []⟩
      refine .inl ⟨ops, ?_, fun makes hmem => ?_⟩
      · rw [← hrun, step, hop]
      · rw [hops makes hmem, hop]
        trivial
    · rw [step, hop]
      rcases s.connect_slot i now owner remote ⟨op.2, []⟩ with hsm | ⟨hnn, -, o, -, -, -, hon⟩
      · exact .inl ⟨[], hsm, forall_mem_nil _⟩
      · exact .inr ⟨hnn, o, hon⟩
    · rw [hst]
      refine .inl ?_
      split
      · exact .refl
      · next hid => exact s.slot_step i (s.slots_of_checkId hid).1 makes hmk
  | none =>
    obtain ⟨op, answers⟩ := op
    cases op with
    | reset =>
      refine .inl ⟨[.free], ?_, forall_mem_singleton.2 trivial⟩
      cases s.table.slots i <;> rfl
    | poll now frames => exact .inl (s.poll_slot i now frames ⟨answers, []⟩)
    | _ => cases hcl

end TcpTransport

end CleanSlate.Network.Tcp
