import CleanSlate.Network.Tcp.Verify.Send
import CleanSlate.Network.Tcp.Verify.Table

/-!
# The connect timeout

A connection in SYN-SENT gives up when a poll finds its connect deadline reached. The deadline is set
by `connect`, and again whenever a poll hands the SYN to the link once more: for the retransmission
timer, or after an unresolved neighbour. And a poll that a frame or the retransmission of another slot
ends does not get to the deadlines of the slots behind. So only a poll that does, and that comes
`TCP_CONNECT_TIMEOUT_TICKS` after all these SYNs and not only after the call, frees the slot.
-/

namespace CleanSlate.Network.Tcp

open Lib List

variable {op : ConnOp} {now deadline : Nat} {link : Link}
  {frames : List (Except NetworkError Inbound)}

/-- The tick of a poll. -/
def ConnOp.pollTick : ConnOp → Option Nat
  | .deliver now .. => some now
  | .pollTimers now _ => some now
  | .pollOutput now _ => some now
  | _ => none

namespace TcpConnection

variable {c c' : TcpConnection}

/-! ## The deadline -/

section

variable (c : TcpConnection) (now : Nat) (link : Link)

theorem connectDeadline_onUnreachable : c.onUnreachable.connectDeadline = c.connectDeadline := by
  unfold onUnreachable
  split <;> rfl

theorem connectDeadline_sendSyn :
    (c.sendSyn now link).2.1.connectDeadline = some (now + tcpConnectTimeoutTicks) := by
  unfold sendSyn
  dsimp only
  split
  · exact connectDeadline_onUnreachable _
  · rfl
  · rfl

theorem connectDeadline_connect :
    (c.connect now link).1.connectDeadline = some (now + tcpConnectTimeoutTicks) := by
  have hsyn := connectDeadline_sendSyn (c.onConnectStart now) now link
  unfold connect
  split <;> rename_i heq <;> rw [heq] at hsyn
  · exact (connectDeadline_onUnreachable _).trans hsyn
  · exact hsyn

end

theorem connectDeadline_tickTimers (h : c.state = .synSent) (now : Nat) :
    (c.tickTimers now).2.connectDeadline = c.connectDeadline := by
  unfold tickTimers
  split
  · rfl
  rw [if_neg (by rw [h]; decide)]
  unfold tickRetransmit timeOut releaseBuffers
  split
  · rfl
  · split
    · split <;> rfl
    · rfl

/-- A SYN of the connection is among the segments. -/
def HandsSyn (c : TcpConnection) (sent : List Outbound) : Prop :=
  ∃ out ∈ sent, out.segment.flags.contains .syn ∧ out.segment.srcPort = c.localAddr.port

/-- The deadline is as it was, or set anew with a SYN handed to the link. -/
def Defers (now : Nat) (c c' : TcpConnection) (sent : List Outbound) : Prop :=
  c'.connectDeadline = c.connectDeadline ∨
    c'.connectDeadline = some (now + tcpConnectTimeoutTicks) ∧ c.HandsSyn sent

theorem Quiet.record (h : Quiet c c') : c'.retransmit = c.retransmit ∧ c'.localAddr = c.localAddr := by
  obtain ⟨_, _, _, _, _, rfl⟩ := h
  exact ⟨rfl, rfl⟩

theorem sendSyn_defers (c : TcpConnection) (now : Nat) (link : Link) :
    (c.sendSyn now link).2.1.retransmit.syn ∧ (c.sendSyn now link).2.1.localAddr = c.localAddr ∧
      Defers now c (c.sendSyn now link).2.1 (c.sendSyn now link).2.2.sent := by
  obtain ⟨nxt, -, hqt⟩ := c.sendSyn_cases now link
  obtain ⟨hrt, hla⟩ := hqt.record
  refine ⟨by rw [hrt], hla, .inr ⟨c.connectDeadline_sendSyn now link, ?_⟩⟩
  rw [sendSyn_sent]
  exact ⟨_, mem_concat_self, (by decide : TcpFlags.syn.contains .syn = true), rfl⟩

theorem retransmitAt_defers (hsyn : c.retransmit.syn) (now : Nat) (link : Link) :
    Defers now c (c.retransmitAt now link).2.1 (c.retransmitAt now link).2.2.sent := by
  unfold retransmitAt unackedForRetransmit
  split
  · exact .inl rfl
  next segment payload hun =>
  have hfl : segment.flags.contains .syn ∧ segment.srcPort = c.localAddr.port := by
    split at hun
    · cases hun
    · cases hun
      rw [hsyn]
      refine ⟨?_, rfl⟩
      cases c.retransmit.fin
      · exact (by decide : (TcpFlags.syn.union .syn).contains .syn = true)
      · exact (by decide : ((TcpFlags.syn.union .syn).union .fin).contains .syn = true)
  have hdd : (c.transmitTcp segment payload link).2.1.connectDeadline = c.connectDeadline := by
    unfold transmitTcp
    split
    · exact c.connectDeadline_onUnreachable
    · rfl
  have hsn := c.transmitTcp_sent link segment payload
  split <;> rename_i heq <;> rw [heq] at hdd hsn
  · exact .inl hdd
  · split
    · refine .inr ⟨rfl, ⟨c.remote.addr, segment, payload⟩, ?_, hfl⟩
      rw [hsn]
      exact mem_concat_self
    · exact .inl hdd

/-! ## Steps in SYN-SENT -/

/-- The segment answers our SYN: it completes the handshake or refuses the connection. -/
def Answers (c : TcpConnection) (seg : TcpSegment) : Prop :=
  seg.flags.contains .ack ∧ seg.ack = c.iss + 1 ∧
    (seg.flags.contains .syn ∨ seg.flags.contains .rst)

variable {seg : TcpSegment}

theorem onSegment_stray (hfl : c.failed = none) (h : c.state = .synSent)
    (hst : ¬c.Answers seg) (payload : List UInt8) : c.onSegment seg payload = (.none, c) := by
  unfold onSegment
  rw [hfl]
  dsimp only
  split
  · next hrst =>
    refine if_neg fun hac => hst ?_
    rw [resetAcceptable, if_pos h, Bool.and_eq_true_iff, beq_iff_eq] at hac
    exact ⟨hac.1, hac.2, .inr hrst⟩
  · unfold dispatch
    rw [h]
    dsimp only [onSynSent]
    split
    · rfl
    · next hfg =>
      refine if_pos fun hack => hst ?_
      simp only [Bool.or_eq_true, Bool.not_eq_true', not_or, Bool.not_eq_false] at hfg
      exact ⟨hfg.2, hack, .inl hfg.1⟩

theorem onSegment_answers (hfl : c.failed = none) (h : c.state = .synSent)
    (han : c.Answers seg) (payload : List UInt8) :
    (c.onSegment seg payload).2.state ≠ .synSent := by
  obtain ⟨hack, hnm, hfg⟩ := han
  unfold onSegment
  rw [hfl]
  dsimp only
  split
  · rw [if_pos]
    · exact TcpState.noConfusion
    · rw [resetAcceptable, if_pos h, hack, hnm]
      exact beq_self_eq_true _
  · next hrst =>
    unfold dispatch
    rw [h]
    dsimp only [onSynSent]
    rw [hack, hfg.resolve_right hrst, if_neg (not_not.2 hnm)]
    exact TcpState.noConfusion

theorem Sends.state (h : Sends now c c') : c'.state = c.state := by
  rcases h with ⟨_, _, _, _, _, rfl⟩ | ⟨_, _, _, _, _, rfl⟩
  · rfl
  · have hph := c.phase_takeSegment now
    simp only [phase, Prod.mk.injEq] at hph
    exact hph.2.1

theorem deliver_synSent (h : c.Coherent) (hs : c.state = .synSent)
    {payload : List UInt8} (heq : (c.deliver now seg payload link).2.1 = some c')
    (hs' : c'.state = .synSent) : c' = c := by
  obtain ⟨-, hsn⟩ := h.deliver_sends heq
  have hst : ¬c.Answers seg := fun han =>
    onSegment_answers h.failed hs han payload (hsn.state.symm.trans hs')
  unfold deliver at heq
  rw [onSegment_stray h.failed hs hst payload] at heq
  exact (Option.some.inj heq).symm

/-- A connection that left SYN-SENT does not come back. -/
theorem Step.synSent (h : c.Coherent) (hst : Step c op c') (hs' : c'.state = .synSent) :
    c.state = .synSent := by
  by_contra hs
  obtain ⟨ms, hpt, -⟩ := hst.path (fun _ _ _ => trivial) h
    (fun _ _ _ _ _ _ => trivial) (fun _ _ _ _ => trivial)
  refine absurd hs' (synced_eq.1 (hpt.invariant (P := fun _ v => v.synced) ?_ [] (synced_eq.2 hs)))
  intro _ v m _ _ hv
  cases m <;> first | exact hv | rfl

/-- A connection that has not failed and has its SYN on record as long as it waits for the answer. -/
structure Asking (c : TcpConnection) : Prop extends Coherent c where
  syn : c.state = .synSent → c.retransmit.syn

theorem Asking.conn (o : Opening) : o.conn.Asking := by
  obtain ⟨nxt, -, hqt⟩ := connect_cases (.new o.owner o.localAddr o.remote o.iss) o.now o.link
  exact ⟨o.coherent, fun _ => by rw [show o.conn.retransmit = _ from hqt.record.1]⟩

theorem pollTimers_defers (hfl : c.failed = none) (hs : c.state = .synSent) (hsyn : c.retransmit.syn)
    (heq : (c.pollTimers now link).2.1 = some c') :
    Defers now c c' (c.pollTimers now link).2.2.sent := by
  have htc := connectDeadline_tickTimers hs now
  have hqt := c.tickTimers_cases now hfl
  unfold pollTimers at heq ⊢
  split at heq <;> rename_i hac <;> rw [hac] at htc hqt
  · obtain rfl := Option.some.inj heq
    rcases hqt with ⟨_, _, hno, -⟩ | hno | ⟨-, hqt⟩
    · cases hno
    · cases hno
    · obtain ⟨hrt, hla⟩ := hqt.record
      have hdf := retransmitAt_defers (hrt ▸ hsyn) now link
      unfold Defers HandsSyn at hdf ⊢
      rwa [htc, hla] at hdf
  · cases heq
  · unfold freeUnlessBuffered at heq
    split at heq
    · obtain rfl := Option.some.inj heq
      exact .inl htc
    · cases heq
  · obtain rfl := Option.some.inj heq
    exact .inl htc

/-- What a step leaves of a connection that stays in SYN-SENT. -/
theorem Asking.stays (h : c.Asking) (hs : c.state = .synSent) (heq : (c.apply op).2 = some c')
    (hs' : c'.state = .synSent) (htk : ∀ t, op.pollTick = some t → t = now) :
    c'.retransmit.syn ∧ c'.localAddr = c.localAddr ∧ Defers now c c' (c.sentAfter op) := by
  have hsm : c' = c → c'.retransmit.syn ∧ c'.localAddr = c.localAddr ∧
      Defers now c c' (c.sentAfter op) := by
    rintro rfl
    exact ⟨h.syn hs, rfl, .inl rfl⟩
  cases op with
  | send now data link =>
    have hsn : (c.send now data link).2.1 = c := by
      unfold send queueSend
      rw [hs]
      rfl
    exact hsm (Option.some.inj (heq.symm.trans (congrArg some hsn)))
  | receive cap =>
    obtain rfl : (c.receive cap).2 = c' := Option.some.inj heq
    rw [receive_eq]
    exact ⟨h.syn hs, rfl, .inl rfl⟩
  | close now link =>
    have hcl : (c.close now link).2.1 = c := by
      unfold close startClose
      rw [hs]
      rfl
    exact hsm (Option.some.inj (heq.symm.trans (congrArg some hcl)))
  | free => cases heq
  | deliver now seg payload link => exact hsm (deliver_synSent h.toCoherent hs heq hs')
  | pollTimers now' link =>
    obtain rfl := htk now' rfl
    obtain ⟨hrt, hla⟩ := (pollTimers_cases h.failed heq).record
    exact ⟨hrt ▸ h.syn hs, hla, pollTimers_defers h.failed hs (h.syn hs) heq⟩
  | pollOutput now' link =>
    obtain rfl := htk now' rfl
    obtain rfl : (c.pollOutput now' link).1 = c' := Option.some.inj heq
    have hdf := c.sendSyn_defers now' link
    unfold sentAfter pollOutput
    dsimp only
    split
    · split <;> rename_i hsn <;> rw [hsn] at hdf <;> exact hdf
    · rw [if_neg (by rw [hs]; decide)]
      exact ⟨h.syn hs, rfl, .inl rfl⟩

/-- From a slot and the segments handed over so far to those later in a call: a connection that is in
SYN-SENT then was before, with its deadline kept, or set with a SYN. -/
structure Leads (now : Nat) (slot : Option TcpConnection) (sent : List Outbound)
    (slot' : Option TcpConnection) (sent' : List Outbound) : Prop where
  grows : sent ⊆ sent'
  asking : (∀ c, slot = some c → c.Asking) → ∀ c', slot' = some c' → c'.Asking ∧
    (c'.state = .synSent → ∃ c, slot = some c ∧ c.state = .synSent ∧
      c'.localAddr = c.localAddr ∧ Defers now c c' sent')

variable {slot slot' slot'' : Option TcpConnection} {sent sent' sent'' : List Outbound}

theorem Leads.of_grows (h : sent ⊆ sent') : Leads now slot sent slot sent' :=
  ⟨h, fun hask c hc => ⟨hask c hc, fun hs => ⟨c, hc, hs, rfl, .inl rfl⟩⟩⟩

theorem Leads.trans (h : Leads now slot sent slot' sent') (h' : Leads now slot' sent' slot'' sent'') :
    Leads now slot sent slot'' sent'' := by
  refine ⟨Subset.trans h.grows h'.grows, fun hask c'' hc'' => ?_⟩
  obtain ⟨hask'', hlast⟩ := h'.asking (fun c' hc' => (h.asking hask c' hc').1) c'' hc''
  refine ⟨hask'', fun hs'' => ?_⟩
  obtain ⟨c', hc', hs', hla', hdf'⟩ := hlast hs''
  obtain ⟨c, hc, hs, hla, hdf⟩ := (h.asking hask c' hc').2 hs'
  refine ⟨c, hc, hs, hla'.trans hla, ?_⟩
  rcases hdf' with hsm | ⟨hset, out, hout, hsyn, hport⟩
  · rcases hdf with hsm' | ⟨hset, out, hout, hsyn⟩
    · exact .inl (hsm.trans hsm')
    · exact .inr ⟨hsm.trans hset, out, h'.grows hout, hsyn⟩
  · exact .inr ⟨hset, out, hout, hsyn, by rw [hport, hla]⟩

theorem Leads.apply (c : TcpConnection) (htk : ∀ t, op.pollTick = some t → t = now) :
    Leads now (some c) (sentBefore op) (c.apply op).2 (c.sentAfter op) := by
  refine ⟨c.sent_grows op, fun hask c' heq => ?_⟩
  have h := hask c rfl
  have hst := h.step heq
  have hstay : c'.state = .synSent → _ := fun hs' =>
    h.stays (hst.synSent h.toCoherent hs') heq hs' htk
  refine ⟨⟨hst.coherent h.toCoherent, fun hs' => (hstay hs').1⟩, fun hs' => ?_⟩
  exact ⟨c, rfl, hst.synSent h.toCoherent hs', (hstay hs').2⟩

/-- Calls that are no polls keep the deadline. -/
theorem Leads.of_leadsTo (h : LeadsTo step (fun op => op.pollTick = none) slot slot') :
    Leads now slot [] slot' [] := by
  obtain ⟨ops, rfl, hops⟩ := h
  induction ops generalizing slot with
  | nil => exact .of_grows (Subset.refl _)
  | cons op ops ih =>
    obtain ⟨hop, hops⟩ := forall_mem_cons.1 hops
    have hnx : Leads now (step slot op).2 [] _ [] := ih hops
    refine Leads.trans ?_ hnx
    cases slot with
    | none => exact .of_grows (Subset.refl _)
    | some c =>
      have hap : Leads now (some c) (sentBefore op) (c.apply op).2 (c.sentAfter op) :=
        .apply c fun t ht => by rw [hop] at ht; cases ht
      cases op <;> first | exact hap | cases hop

/-- At its deadline the timers free a connection in SYN-SENT. -/
theorem pollTimers_synSent (hfl : c.failed = none) (hs : c.state = .synSent)
    (hdd : c.connectDeadline = some deadline) (hrc : deadline ≤ now) (link : Link) :
    c.pollTimers now link = (.ok (), none, link) ∧ (c.tickTimers now).2.failed = some .timeout := by
  have htc : c.tickTimers now = c.timeOut := by
    unfold tickTimers
    rw [hfl]
    refine (if_neg (by rw [hs]; decide)).trans (if_pos ⟨hs, ?_⟩)
    rw [hdd]
    exact decide_eq_true hrc
  unfold pollTimers
  rw [htc]
  exact ⟨rfl, rfl⟩

end TcpConnection

namespace TcpTransport

open TcpConnection (Leads)

variable (s : TcpTransport) (i : Fin maxTcpConnections)

/-! ## Polls -/

theorem poll_leads (now : Nat) (frames : List (Except NetworkError Inbound)) (link : Link) :
    Leads now (s.table.slots i) link.sent ((s.poll now frames link).2.1.table.slots i)
      (s.poll now frames link).2.2.sent := by
  refine PollRule.poll s i ⟨.of_grows, .trans, fun c op hmk => .apply c fun t ht => ?_⟩ link
  cases op <;> cases ht
  · exact hmk.1
  · exact hmk
  · exact hmk

section

variable (now : Nat) (link : Link)

theorem pollTimers_other {indices : List (Fin maxTcpConnections)} (hi : i ∉ indices) :
    (s.pollTimers now link indices).2.1.table.slots i = s.table.slots i := by
  induction indices generalizing s link with
  | nil => rfl
  | cons j rest ih =>
    obtain ⟨hij, hrs⟩ := not_or.1 (mt mem_cons.2 hi)
    have hset : ∀ conn, (s.set j conn).table.slots i = s.table.slots i := fun conn => by
      rw [slots_set, if_neg hij]
    unfold pollTimers
    split
    · exact ih s link hrs
    · split
      · exact hset _
      · exact (ih _ _ hrs).trans (hset _)

/-- A free slot stays free. -/
theorem freeRule (Q : ConnOp → Prop) : PollRule Q fun slot _ slot' _ => slot = none → slot' = none :=
  ⟨fun _ => id, fun h h' hn => h' (h hn), fun _ _ _ hn => (by cases hn)⟩

theorem pollTimers_frees {c : TcpConnection} {rest : List (Fin maxTcpConnections)}
    (hsl : s.table.slots i = some c) (hpt : c.pollTimers now link = (.ok (), none, link))
    (hi : i ∉ rest) : (s.pollTimers now link (i :: rest)).2.1.table.slots i = none := by
  unfold pollTimers
  rw [hsl]
  dsimp only
  rw [hpt]
  exact (pollTimers_other _ _ _ _ hi).trans ((slots_set ..).trans (if_pos rfl))

theorem pollTimers_append (indices rest : List (Fin maxTcpConnections)) :
    s.pollTimers now link (indices ++ rest) = match s.pollTimers now link indices with
      | (.error error, s, link) => (.error error, s, link)
      | (.ok (), s, link) => s.pollTimers now link rest := by
  induction indices generalizing s link with
  | nil => rfl
  | cons j indices ih =>
    simp only [cons_append, pollTimers]
    split
    · exact ih s link
    · split
      · rfl
      · exact ih _ _

end

/-- Frames that do not answer the SYN of a connection. -/
def Stray (c : TcpConnection) (frames : List (Except NetworkError Inbound)) : Prop :=
  ∀ src seg payload, .ok (.tcp src seg payload) ∈ frames →
    c.localAddr.port = seg.dstPort → c.remote = ⟨src, seg.srcPort⟩ → ¬c.Answers seg

variable {c : TcpConnection}

section

variable (hslot : s.table.slots i = some c)
include hslot

theorem pollFrame_stray (hfl : c.failed = none)
    (hs : c.state = .synSent) (now : Nat) (frame : Inbound) (hst : Stray c [.ok frame])
    (link : Link) : (s.pollFrame now frame link).2.1.table.slots i = some c := by
  unfold pollFrame
  split
  · exact hslot
  next src seg payload =>
  split
  · exact hslot
  next j hfn =>
  split
  · exact hslot
  next d hd =>
  refine (slots_set ..).trans ?_
  split
  · next hij =>
    obtain rfl : c = d := Option.some.inj (hslot.symm.trans (hij ▸ hd))
    have hqd := Slots.position_some hfn
    rw [← hij, hslot, Option.any_some, Bool.and_eq_true_iff, beq_iff_eq, beq_iff_eq] at hqd
    have hdr := TcpConnection.onSegment_stray hfl hs
      (hst src seg payload (mem_singleton.2 rfl) hqd.1 hqd.2) payload
    unfold TcpConnection.deliver
    rw [hdr]
  · exact hslot

theorem pollFrames_stray (hfl : c.failed = none) (hs : c.state = .synSent) (now : Nat)
    (hst : Stray c frames) (link : Link) :
    (s.pollFrames now link frames).2.1.table.slots i = some c := by
  induction frames generalizing s link with
  | nil => exact hslot
  | cons head frames ih =>
    cases head with
    | error e => exact hslot
    | ok frame =>
      have hfr := s.pollFrame_stray i hslot hfl hs now frame
        (fun src seg payload hmem => hst src seg payload
          (mem_cons.2 (.inl (mem_singleton.1 hmem)))) link
      unfold pollFrames
      split <;> rename_i heq <;> rw [heq] at hfr
      · exact hfr
      · exact ih _ hfr (fun src seg payload hmem => hst src seg payload (mem_cons_of_mem _ hmem)) _

/-- The poll gives up the connection of slot `i`. -/
def TimesOut (now : Nat) (frames : List (Except NetworkError Inbound)) (link : Link) : Prop :=
  (s.poll now frames link).2.1.table.slots i = none ∧
    ∃ c, s.table.slots i = some c ∧ (c.tickTimers now).2.failed = some .timeout

/-- The poll gets to the timers of slot `i`: neither a frame nor the retransmission of a slot before
it ends the poll. -/
def Reaches (now : Nat) (frames : List (Except NetworkError Inbound)) (link : Link) : Prop :=
  let (result, s₁, link₁) := s.pollFrames now link (frames.take tcpPollRxBudget)
  result = .ok () ∧
    (s₁.pollTimers now link₁ ((finRange maxTcpConnections).take i)).1 = .ok ()

theorem timesOut_iff_reaches (h : c.Coherent) (hs : c.state = .synSent)
    (hdd : c.connectDeadline = some deadline) (hrc : deadline ≤ now) (hst : Stray c frames) :
    s.TimesOut i now frames link ↔ s.Reaches i now frames link := by
  have htk : Stray c (frames.take tcpPollRxBudget) := fun src seg payload hmem =>
    hst src seg payload (mem_of_mem_take hmem)
  have hfr := s.pollFrames_stray i hslot h.failed hs now htk link
  have hsp : finRange maxTcpConnections = (finRange maxTcpConnections).take i ++
      i :: (finRange maxTcpConnections).drop (i + 1) := by
    have hdr : (finRange maxTcpConnections).drop i = _ :=
      drop_eq_getElem_cons (show i < (finRange maxTcpConnections).length by simp)
    rw [getElem_finRange] at hdr
    exact (take_append_drop i _).symm.trans (congrArg _ hdr)
  have hnd := nodup_finRange maxTcpConnections
  rw [hsp, nodup_middle, nodup_cons, mem_append, not_or] at hnd
  obtain ⟨⟨hbf, haf⟩, -⟩ := hnd
  unfold TimesOut Reaches poll
  dsimp only
  generalize s.pollFrames now link (frames.take tcpPollRxBudget) = result at hfr ⊢
  obtain ⟨_ | _, s₁, link₁⟩ := result
  · -- a frame ended the poll
    refine ⟨fun hout => ?_, fun hre => (by cases hre.1)⟩
    rw [hfr] at hout
    cases hout.1
  dsimp only at hfr ⊢
  have hsl := (s₁.pollTimers_other i now link₁ hbf).trans hfr
  rw [hsp, pollTimers_append, ← hsp]
  generalize s₁.pollTimers now link₁ ((finRange maxTcpConnections).take i) = result at hsl ⊢
  obtain ⟨_ | _, s₂, link₂⟩ := result
  · refine ⟨fun hout => ?_, fun hre => (by cases hre.2)⟩
    rw [hsl] at hout
    cases hout.1
  obtain ⟨hpt, hto⟩ := TcpConnection.pollTimers_synSent h.failed hs hdd hrc link₂
  have hfree := s₂.pollTimers_frees i now link₂ hsl hpt haf
  refine ⟨fun _ => ⟨rfl, rfl⟩, fun _ => ⟨?_, c, hslot, hto⟩⟩
  dsimp only
  generalize s₂.pollTimers now link₂ (i :: _) = result at hfree ⊢
  obtain ⟨_ | _, s₃, link₃⟩ := result
  · exact hfree
  · exact (freeRule fun _ => True).pollOutput s₃ i (fun _ => trivial) link₃ _ hfree

end

/-! ## Runs -/

variable (ops : List (TcpOp × List (Except NetworkError Unit)))

/-- A poll of the run at tick `r` handed a SYN of slot `i`'s connection to the link. -/
def HandsSyn (r : Nat) : Prop := ∃ e ∈ trace step s ops, ∃ frames c, e.input.1 = .poll r frames ∧
  e.pre.table.slots i = some c ∧ c.HandsSyn (e.pre.poll r frames ⟨e.input.2, []⟩).2.2.sent

/-- The connection of slot `i` waits for the answer to its SYN throughout the run. -/
def Waits : Prop := ∀ before, before <+: ops →
    ∃ c, (run step s before).table.slots i = some c ∧ c.state = .synSent

theorem step_leads {c : TcpConnection} (hslot : s.table.slots i = some c)
    (op : TcpOp × List (Except NetworkError Unit)) :
    ∃ now sent, Leads now (some c) [] ((s.step op).2.table.slots i) sent ∧ (sent = [] ∨
      ∃ frames, op.1 = .poll now frames ∧ sent = (s.poll now frames ⟨op.2, []⟩).2.2.sent) := by
  obtain ⟨op, answers⟩ := op
  by_cases hpl : ∃ now frames, op = .poll now frames
  · obtain ⟨now, frames, rfl⟩ := hpl
    exact ⟨now, _, hslot ▸ s.poll_leads i now frames ⟨answers, []⟩, .inr ⟨frames, rfl, rfl⟩⟩
  · refine ⟨0, [], ?_, .inl rfl⟩
    rcases s.step_slot i (op, answers) with ⟨steps, hrun, hmk⟩ | ⟨hnn, -⟩
    · rw [hslot] at hrun
      refine .of_leadsTo ⟨steps, hrun, fun op' hmem => ?_⟩
      have hmk := hmk op' hmem
      cases op <;> cases op' <;> first | rfl | exact hmk.elim | exact absurd ⟨_, _, rfl⟩ hpl
    · exact absurd (hslot.symm.trans hnn) (Option.some_ne_none c)

/-- The deadline was set by the call, or by a poll that handed the SYN to the link. -/
theorem run_deadline {c₀ : TcpConnection} {t₀ : Nat} (hslot : s.table.slots i = some c₀)
    (h : c₀.Asking) (hdd : c₀.connectDeadline = some (t₀ + tcpConnectTimeoutTicks))
    {ops : List (TcpOp × List (Except NetworkError Unit))} (hwt : s.Waits i ops) :
    ∃ c r, (run step s ops).table.slots i = some c ∧ c.Asking ∧ c.state = .synSent ∧
      c.connectDeadline = some (r + tcpConnectTimeoutTicks) ∧ (r = t₀ ∨ s.HandsSyn i ops r) := by
  induction ops using reverseRecOn with
  | nil =>
    obtain ⟨c, hc, hs⟩ := hwt [] prefix_rfl
    obtain rfl : c₀ = c := Option.some.inj (hslot.symm.trans hc)
    exact ⟨c₀, t₀, hslot, h, hs, hdd, .inl rfl⟩
  | append_singleton ops op ih =>
    obtain ⟨c, r, hc, hask, -, hset, hfr⟩ :=
      ih fun before hb => hwt before (hb.trans (prefix_append ops [op]))
    obtain ⟨c', hc', hs'⟩ := hwt (ops ++ [op]) prefix_rfl
    have hold : r = t₀ ∨ s.HandsSyn i (ops ++ [op]) r := hfr.imp id fun ⟨e, he, hsyn⟩ =>
      ⟨e, by rw [trace_snoc]; exact mem_append_left _ he, hsyn⟩
    rw [run_snoc] at hc' ⊢
    obtain ⟨now, sent, hld, hsent⟩ := (run step s ops).step_leads i hc op
    obtain ⟨hask', hst⟩ := hld.asking (fun d hd => Option.some.inj hd ▸ hask) c' hc'
    obtain ⟨d, hd, -, -, hdf⟩ := hst hs'
    obtain rfl : c = d := Option.some.inj hd
    rcases hdf with hsm | ⟨hnew, hsyn⟩
    · exact ⟨c', r, hc', hask', hs', hsm.trans hset, hold⟩
    rcases hsent with rfl | ⟨frames, hop, rfl⟩
    · obtain ⟨out, hout, -⟩ := hsyn
      cases hout
    · refine ⟨c', now, hc', hask', hs', hnew, .inr ⟨.of step (run step s ops) op, ?_, frames, c,
        hop, hc, hsyn⟩⟩
      rw [trace_snoc]
      exact mem_concat_self

/-- Say that `TCP_CONNECT_TIMEOUT_TICKS` or more have passed since the call, and since every SYN of the
connection that a poll handed to the link. Then a poll with no answer to the SYN gives the connection
up exactly when it gets to its timers. -/
theorem connect_timeout_iff (now₀ : Nat) (owner : TrustedCaller) (remote : SocketAddrV4)
    (link₀ : Link) (ops : List (TcpOp × List (Except NetworkError Unit))) (now : Nat)
    (frames : List (Except NetworkError Inbound)) (link : Link) (hfree : s.table.slots i = none)
    (hwaits : (s.connect now₀ owner remote link₀).2.1.Waits i ops)
    (hnow : now₀ + tcpConnectTimeoutTicks ≤ now) :
    let s₁ := (s.connect now₀ owner remote link₀).2.1
    let s₂ := run step s₁ ops
    (∀ c, s₂.table.slots i = some c → Stray c frames) →
    (∀ r, s₁.HandsSyn i ops r → r + tcpConnectTimeoutTicks ≤ now) →
    (s₂.TimesOut i now frames link ↔ s₂.Reaches i now frames link) := by
  intro s₁ s₂ hst hsyn
  -- the slot was free before the call and is taken after it
  have hop : ∃ o : Opening, o.now = now₀ ∧ s₁.table.slots i = some o.conn := by
    rcases s.connect_slot i now₀ owner remote link₀ with hsm | ⟨-, -, o, hnow₀, -, -, hop⟩
    · obtain ⟨c, hc, -⟩ := hwaits [] (List.nil_prefix)
      exact absurd (hc.symm.trans (hsm.trans hfree)) (Option.some_ne_none c)
    · exact ⟨o, hnow₀, hop⟩
  obtain ⟨o, hnow₀, hslot⟩ := hop
  have hdd : o.conn.connectDeadline = some (now₀ + tcpConnectTimeoutTicks) := by
    rw [← hnow₀]
    exact TcpConnection.connectDeadline_connect ..
  obtain ⟨c, r, hc, hask, hs, hset, hfr⟩ := s₁.run_deadline i hslot (.conn o) hdd hwaits
  refine s₂.timesOut_iff_reaches i hc hask.toCoherent hs hset ?_ (hst c hc)
  rcases hfr with rfl | hr
  · exact hnow
  · exact hsyn r hr

def firstSlot : Fin maxTcpConnections := ⟨0, by decide⟩

/-- A call of `connect` at tick 0 whose SYN the link has no neighbour for. -/
def sampleMissed : TcpTransport := ((new (.new 10 0 2 15) ⟨1⟩).connect 0 ⟨1, 1, 1⟩
  ⟨.new 10 0 2 2, 4001⟩ ⟨[.error .unreachable], []⟩).2.1

/-- A poll at tick 10 hands the SYN to the link, and the poll at tick 510 gives up. -/
theorem connect_timeout_missed :
    (run step sampleMissed [(.poll 10 [], [])]).TimesOut firstSlot 510 [] ⟨[], []⟩ := by
  refine (connect_timeout_iff (new (.new 10 0 2 15) ⟨1⟩) firstSlot 0 ⟨1, 1, 1⟩
    ⟨.new 10 0 2 2, 4001⟩ ⟨[.error .unreachable], []⟩ [(.poll 10 [], [])] 510 [] ⟨[], []⟩ rfl ?_
    (by decide) ?_ ?_).2 ⟨rfl, rfl⟩
  · intro before hbf
    rcases prefix_concat_iff.1 (show before <+: [] ++ [_] from hbf) with rfl | hbf
    · exact ⟨_, rfl, rfl⟩
    · obtain rfl := prefix_nil.1 hbf
      exact ⟨_, rfl, rfl⟩
  · intro c _ src seg payload hmem
    cases hmem
  · rintro r ⟨e, he, frames, c, hop, -⟩
    obtain rfl := mem_singleton.1 he
    cases hop
    decide

/-- A transport after a call of `connect` at tick 0, over a link that takes every segment. -/
def sampleConnecting : TcpTransport :=
  ((new (.new 10 0 2 15) ⟨1⟩).connect 0 ⟨1, 1, 1⟩ ⟨.new 10 0 2 2, 4001⟩ ⟨[], []⟩).2.1

/-- Two calls of `connect` at tick 0; then the first slot is freed and taken again at tick 400. -/
def sampleCrowded : TcpTransport := run step sampleConnecting
  [(.connect 0 ⟨1, 1, 1⟩ ⟨.new 10 0 2 2, 4002⟩, []), (.abort (.new ⟨1⟩ 0) ⟨1, 1, 1⟩, []),
    (.connect 400 ⟨1, 1, 1⟩ ⟨.new 10 0 2 2, 4003⟩, [])]

/-- A poll at tick 50 sends the SYN again. Then the poll at tick 500 keeps the connection, and sends
the SYN once more. And a poll at tick 500 in which the device refuses the retransmission of the first
slot keeps the connection of the second, whose deadline has come. -/
theorem retransmission_defers_timeout :
    (let s := (step sampleConnecting (.poll 50 [], [])).2;
      (s.poll 500 [] ⟨[], []⟩).1 = .ok () ∧
        ((s.poll 500 [] ⟨[], []⟩).2.1.table.slots firstSlot).map
          (fun c => (c.state, c.connectDeadline)) = some (.synSent, some 1000)) ∧
    (sampleCrowded.poll 500 [] ⟨[.error .queueFull], []⟩).1 = .error .queueFull ∧
      ((sampleCrowded.poll 500 [] ⟨[.error .queueFull], []⟩).2.1.table.slots ⟨1, by decide⟩).map
        (fun c => (c.state, c.connectDeadline)) = some (.synSent, some 500) := by
  decide

end TcpTransport

end CleanSlate.Network.Tcp
