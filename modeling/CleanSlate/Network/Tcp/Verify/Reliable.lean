import CleanSlate.Network.Tcp.Verify.Window

/-!
# Accepted bytes are kept until they are acknowledged

The bytes that `send` accepts have the sequence numbers from `iss + 1` on. What a connection keeps of
them is described by two positions in that stream: how much was sent, and how much was acknowledged
(`Stream`). What lies between the two is in the segment kept for retransmission, what follows is
queued, and our FIN comes after all of it.

`close` sends the FIN at once. If bytes are still queued it comes before them, and if a segment is
still unacknowledged it takes the place of that segment (`EarlyClose`); and an acknowledgement half a
circle away skips what was never sent. These are the only steps after which accepted bytes are lost.
-/

namespace CleanSlate.Network.Tcp

open Lib List

namespace SendSide

/-- The sequence number that our FIN takes. -/
def finLen (v : SendSide) : Nat := if v.finSent then 1 else 0

/-- `sent` bytes of the stream were sent and `acked` of its sequence numbers were acknowledged. -/
structure Stream (accepted : List UInt8) (v : SendSide) (sent acked : Nat) : Prop where
  sent_le : sent ≤ accepted.length
  queue : v.queue = accepted.drop sent
  nxt : v.nxt = v.iss + 1 + UInt32.ofNat (sent + v.finLen)
  una : v.una = v.iss + 1 + UInt32.ofNat acked
  acked_le : acked ≤ sent + v.finLen
  /-- the kept segment covers what is outstanding -/
  kept : acked < sent + v.finLen → v.unacked.active ∧ v.unacked.syn = false ∧
    v.unacked.fin = v.finSent ∧ ∃ offset ≤ acked, v.unacked.seq = v.iss + 1 + UInt32.ofNat offset ∧
      v.unacked.data = (accepted.take sent).drop offset
  fits : v.unacked.data.length ≤ maxTcpPayload
  fin : v.finSent → sent = accepted.length

/-- Before the handshake is complete nothing is accepted, and the SYN is kept. -/
structure Unsynced (accepted : List UInt8) (v : SendSide) : Prop where
  accepted : accepted = []
  queue : v.queue = []
  una : v.una = v.iss
  nxt : v.nxt = v.iss ∨ v.nxt = v.iss + 1
  kept : v.unacked = ⟨true, v.iss, true, false, []⟩
  fin : v.finSent = false

structure Reliable (accepted : List UInt8) (v : SendSide) : Prop where
  unsynced : v.synced = false → v.Unsynced accepted
  stream : v.synced → ∃ sent acked, v.Stream accepted sent acked

/-- A segment that is kept has something outstanding. -/
def Busy (v : SendSide) : Prop := v.synced → v.unacked.active → v.una ≠ v.nxt

/-- The FIN is sent last, and only numbers in the interval are acknowledged. -/
def Orderly (v : SendSide) : Move → Prop
  | .ack a => ¬Halfway a v.una v.nxt
  | .fin => v.queue = [] ∧ v.unacked.active = false
  | _ => True

variable {accepted : List UInt8} {v : SendSide} {sent acked : Nat}

theorem finLen_le (v : SendSide) : v.finLen ≤ 1 := by
  unfold finLen
  split <;> decide

theorem finLen_of_not (h : v.finSent = false) : v.finLen = 0 := by rw [finLen, h]; rfl

theorem ofNat_add_sub (a : UInt32) {m n : Nat} (h : m ≤ n) (hlt : n - m < 2 ^ 32) :
    (a + UInt32.ofNat n - (a + UInt32.ofNat m)).toNat = n - m := by
  simp only [UInt32.toNat_sub, UInt32.toNat_add, UInt32.toNat_ofNat']
  omega

section

variable (h : v.Stream accepted sent acked)
include h

/-- At most one segment and a FIN are outstanding. -/
theorem Stream.outstanding_le : sent + v.finLen ≤ acked + (maxTcpPayload + 1) := by
  by_cases hall : acked < sent + v.finLen
  · obtain ⟨-, -, -, offset, hof, -, hdt⟩ := h.kept hall
    have hln := congrArg length hdt
    rw [length_drop, length_take, Nat.min_eq_left h.sent_le] at hln
    have hft := h.fits
    have hfin := v.finLen_le
    omega
  · omega

theorem Stream.toNat_outstanding : (v.nxt - v.una).toNat = sent + v.finLen - acked := by
  have hle := h.outstanding_le
  rw [h.nxt, h.una]
  refine ofNat_add_sub _ h.acked_le ?_
  simp only [maxTcpPayload] at hle
  omega

theorem Stream.idle (hac : v.unacked.active = false) : acked = sent + v.finLen := by
  by_contra hne
  have hlt : acked < sent + v.finLen := Nat.lt_of_le_of_ne h.acked_le hne
  exact Bool.noConfusion ((h.kept hlt).1.symm.trans hac)

/-! ## Moves -/

theorem Stream.ack {a : UInt32} (hin : (a - v.una).toNat ≤ (v.nxt - v.una).toNat) :
    (v.move (.ack a)).Stream accepted sent (acked + (a - v.una).toNat) := by
  have hout := h.toNat_outstanding
  have hle := h.acked_le
  have hdt : (v.move (.ack a)).unacked.data = v.unacked.data := by
    dsimp only [move]
    split <;> rfl
  refine ⟨h.sent_le, h.queue, h.nxt, ?_, ?_, fun hlt => ?_, ?_, h.fin⟩
  · change a = v.iss + 1 + UInt32.ofNat (acked + (a - v.una).toNat)
    rw [UInt32.ofNat_add, UInt32.ofNat_toNat, ← UInt32.add_assoc, ← h.una, UInt32.add_comm,
      UInt32.sub_add_cancel]
  · change acked + (a - v.una).toNat ≤ sent + v.finLen
    omega
  · -- not everything is acknowledged, so the segment stays
    change acked + (a - v.una).toNat < sent + v.finLen at hlt
    have hne : a ≠ v.nxt := fun hall => by
      rw [hall] at hlt
      omega
    obtain ⟨hac, hsyn, hfin, offset, hof, hseq, hkp⟩ := h.kept (by omega)
    dsimp only [move]
    rw [if_neg hne]
    exact ⟨hac, hsyn, hfin, offset, by omega, hseq, hkp⟩
  · rw [hdt]
    exact h.fits

theorem Stream.queue_move (hfin : v.finSent = false)
    (data : List UInt8) : (v.move (.queue data)).Stream (accepted ++ data) sent acked := by
  refine ⟨?_, ?_, h.nxt, h.una, h.acked_le, fun hlt => ?_, h.fits, fun hsn => ?_⟩
  · rw [length_append]
    exact h.sent_le.trans (Nat.le_add_right _ _)
  · rw [drop_append_of_le_length h.sent_le, ← h.queue]
    rfl
  · rw [take_append_of_le_length h.sent_le]
    exact h.kept hlt
  · exact Bool.noConfusion (hsn.symm.trans hfin)

theorem Stream.segment {n : Nat} (hal : v.Allows (.segment n)) :
    (v.move (.segment n)).Stream accepted (sent + n) acked := by
  obtain ⟨-, hfin, hac, hpos, hmax, hlen⟩ := hal
  have hak := h.idle hac
  have hzr := finLen_of_not hfin
  have hnxt := h.nxt
  rw [h.queue, length_drop] at hlen
  rw [hzr, Nat.add_zero] at hak hnxt
  have hdt : v.queue.take n = (accepted.take (sent + n)).drop sent := by
    rw [h.queue, drop_take, Nat.add_sub_cancel_left]
  refine ⟨by omega, ?_, ?_, h.una, ?_, fun _ => ⟨rfl, rfl, hfin.symm, sent, ?_, hnxt, hdt⟩, ?_,
    fun hsn => ?_⟩
  · change v.queue.drop n = accepted.drop (sent + n)
    rw [h.queue, drop_drop]
  · change v.nxt + UInt32.ofNat n = v.iss + 1 + UInt32.ofNat (sent + n + v.finLen)
    rw [hzr, hnxt, Nat.add_zero, UInt32.ofNat_add, UInt32.add_assoc]
  · omega
  · exact hak.ge
  · exact (length_take_le _ _).trans hmax
  · exact Bool.noConfusion (hfin.symm.trans hsn)

theorem Stream.fin_move (hfin : v.finSent = false)
    (hqu : v.queue = []) (hac : v.unacked.active = false) :
    (v.move .fin).Stream accepted sent acked := by
  have hak := h.idle hac
  have hzr := finLen_of_not hfin
  have hnxt := h.nxt
  rw [hzr, Nat.add_zero] at hak hnxt
  have hall : sent = accepted.length := by
    have hdr := h.queue
    rw [hqu] at hdr
    exact Nat.le_antisymm h.sent_le (drop_eq_nil_iff.1 hdr.symm)
  refine ⟨h.sent_le, h.queue, ?_, h.una, ?_, fun _ => ⟨rfl, rfl, rfl, sent, hak.ge, hnxt, ?_⟩,
    Nat.zero_le _, fun _ => hall⟩
  · change v.nxt + 1 = v.iss + 1 + UInt32.ofNat (sent + 1)
    rw [hnxt, UInt32.ofNat_add, ← UInt32.add_assoc]
    rfl
  · omega
  · exact (drop_eq_nil_iff.2 (length_take_le _ _)).symm

end

theorem Reliable.of_stream (hsy : v.synced) (h : v.Stream accepted sent acked) :
    v.Reliable accepted :=
  ⟨fun hsyn => Bool.noConfusion (hsyn.symm.trans hsy), fun _ => ⟨sent, acked, h⟩⟩

theorem Reliable.move (h : v.Reliable accepted) {m : Move} (hal : v.Allows m)
    (hor : v.Orderly m) : (v.move m).Reliable (accepted ++ m.accepted) := by
  cases m with
  | syn nxt =>
    obtain ⟨hsyn, hnxt⟩ := hal
    obtain ⟨hac, hqu, huna, hold, -, hfin⟩ := h.unsynced hsyn
    rw [show accepted ++ (Move.syn nxt).accepted = accepted from append_nil _]
    refine ⟨fun _ => ⟨hac, hqu, huna, ?_, rfl, hfin⟩,
      fun hsy => Bool.noConfusion (hsyn.symm.trans hsy)⟩
    rcases hnxt with rfl | rfl
    · exact hold
    · exact .inr rfl
  | synAck =>
    obtain ⟨rfl, hqu, -, -, hkp, hfin⟩ := h.unsynced hal
    have hzr := finLen_of_not hfin
    suffices hst : (v.move .synAck).Stream [] 0 0 from .of_stream rfl hst
    refine ⟨Nat.zero_le _, hqu, ?_, ?_, Nat.zero_le _, fun hlt => ?_, ?_, fun _ => rfl⟩
    · change v.iss + 1 = v.iss + 1 + UInt32.ofNat (0 + v.finLen)
      rw [hzr]
      exact (UInt32.add_zero _).symm
    · exact (UInt32.add_zero _).symm
    · change 0 < 0 + v.finLen at hlt
      omega
    · change v.unacked.data.length ≤ maxTcpPayload
      rw [hkp]
      exact Nat.zero_le _
  | ack a =>
    obtain ⟨hsy, hvl⟩ := hal
    obtain ⟨sent, acked, hst⟩ := h.stream hsy
    rw [show accepted ++ (Move.ack a).accepted = accepted from append_nil _]
    exact .of_stream hsy (hst.ack (interval_of_ackValid hvl hor))
  | queue data =>
    obtain ⟨hsy, hfin⟩ := hal
    obtain ⟨sent, acked, hst⟩ := h.stream hsy
    exact .of_stream hsy (hst.queue_move hfin data)
  | segment n =>
    obtain ⟨sent, acked, hst⟩ := h.stream hal.1
    rw [show accepted ++ (Move.segment n).accepted = accepted from append_nil _]
    exact .of_stream hal.1 (hst.segment hal)
  | fin =>
    obtain ⟨hsy, hfin⟩ := hal
    obtain ⟨sent, acked, hst⟩ := h.stream hsy
    rw [show accepted ++ Move.fin.accepted = accepted from append_nil _]
    exact .of_stream hsy (hst.fin_move hfin hor.1 hor.2)

theorem Busy.move (h : v.Busy) (hrl : v.Reliable accepted) {m : Move}
    (hal : v.Allows m) (hor : v.Orderly m) : (v.move m).Busy := by
  cases m with
  | syn nxt => exact fun hsy => Bool.noConfusion (hal.1.symm.trans hsy)
  | synAck => exact fun _ hac => Bool.noConfusion hac
  | ack a =>
    intro _ hac hall
    dsimp only [SendSide.move] at hac hall
    rw [if_pos hall] at hac
    cases hac
  | queue data => exact h
  | segment n =>
    obtain ⟨sent, acked, hst⟩ := hrl.stream hal.1
    have hmv := (hst.segment hal).toNat_outstanding
    have hle := hst.acked_le
    intro _ _ hsm
    rw [hsm, UInt32.sub_self] at hmv
    change 0 = sent + n + v.finLen - acked at hmv
    have hpos := hal.2.2.2.1
    omega
  | fin =>
    obtain ⟨sent, acked, hst⟩ := hrl.stream hal.1
    have hmv := (hst.fin_move hal.2 hor.1 hor.2).toNat_outstanding
    have hid := hst.idle hor.2
    intro _ _ hsm
    rw [hsm, UInt32.sub_self] at hmv
    change 0 = sent + 1 - acked at hmv
    rw [finLen_of_not hal.2] at hid
    omega

theorem Reliable.outstanding_le (h : v.Reliable accepted) :
    (v.nxt - v.una).toNat ≤ maxTcpPayload + 1 := by
  cases hsy : v.synced with
  | true =>
    obtain ⟨sent, acked, hst⟩ := h.stream hsy
    have hle := hst.outstanding_le
    rw [hst.toNat_outstanding]
    omega
  | false =>
    have hun := h.unsynced hsy
    exact Opens.outstanding_le (fun _ => ⟨hun.una, hun.nxt⟩) hsy

theorem not_reliable_fin (h : v.Reliable accepted) (hbs : v.Busy) (hal : v.Allows .fin)
    (her : v.queue ≠ [] ∨ v.unacked.active) : ¬(v.move .fin).Reliable accepted := by
  intro haf
  obtain ⟨hsy, hfin⟩ := hal
  obtain ⟨sent, acked, hst⟩ := haf.stream hsy
  have hall : sent = accepted.length := hst.fin rfl
  have hqu : v.queue = [] := by
    have hdr : v.queue = accepted.drop sent := hst.queue
    rwa [hall, drop_length] at hdr
  have hac := her.resolve_left (not_not.2 hqu)
  obtain ⟨sent₀, acked₀, hstream₀⟩ := h.stream hsy
  -- the FIN alone is kept, so everything before it should have been acknowledged
  have hak : sent ≤ acked := by
    by_contra hlt
    obtain ⟨-, -, -, offset, hof, -, hdt⟩ := hst.kept (show acked < sent + 1 by omega)
    have hln := congrArg length hdt
    rw [length_drop, length_take, Nat.min_eq_left hst.sent_le] at hln
    change 0 = sent - offset at hln
    omega
  have hout₀ := hstream₀.toNat_outstanding
  have hle₀ := hstream₀.outstanding_le
  have hout : (v.nxt + 1 - v.una).toNat = sent + 1 - acked := hst.toNat_outstanding
  have hne : (v.nxt - v.una).toNat ≠ 0 := fun hzr => hbs hsy hac (by
    have hsub : v.nxt - v.una = 0 := UInt32.toNat_inj.1 hzr
    rw [← UInt32.sub_add_cancel v.nxt v.una, hsub, UInt32.zero_add])
  have hsc : (v.nxt + 1 - v.una).toNat = (v.nxt - v.una).toNat + 1 := by
    have hbn : (v.nxt - v.una).toNat ≤ maxTcpPayload + 1 := by omega
    simp only [maxTcpPayload, UInt32.toNat_sub, UInt32.toNat_add, UInt32.toNat_one] at hbn ⊢
    omega
  omega

end SendSide

/-! ## Lives of a connection -/

namespace TcpConnection

variable {c c' : TcpConnection}

/-- The bytes that `send` accepted in a life. -/
def acceptedIn (log : List ConnEvent) : List UInt8 := log.flatMap fun e => match e.pre with
    | some c => c.acceptedBy e.input
    | none => []

/-- A `close` that starts while bytes are queued or unacknowledged. -/
def EarlyClose (e : ConnEvent) : Prop := ∃ c now link, e.pre = some c ∧ e.input = .close now link ∧
    (c.state = .established ∨ c.state = .closeWait) ∧
    (c.sendBuf.contents ≠ [] ∨ c.retransmit.active)

/-- Steps that keep all accepted bytes. -/
def KeepsStream (e : ConnEvent) : Prop := ¬HalfwayAck e ∧ ¬EarlyClose e

theorem acceptedIn_snoc (log : List ConnEvent) (op : ConnOp) :
    acceptedIn (log ++ [.of step (some c) op]) = acceptedIn log ++ c.acceptedBy op := by
  simp [acceptedIn, Event.of]

theorem Reliable.step {op : ConnOp} {accepted : List UInt8} (h : c.Coherent)
    (hkp : KeepsStream (.of TcpConnection.step (some c) op))
    (hrl : c.sendSide.Reliable accepted ∧ c.sendSide.Busy) (hst : Step c op c') :
    c'.sendSide.Reliable (accepted ++ c.acceptedBy op) ∧ c'.sendSide.Busy := by
  obtain ⟨hhl, her⟩ := hkp
  obtain ⟨ms, hpt, hms⟩ := hst.path (R := SendSide.Orderly) (fun v m hrt => by
      cases m with
      | ack | fin => cases hrt
      | _ => trivial) h
    (fun now seg payload link hop htk hhl' =>
      hhl ⟨c, now, seg, payload, link, rfl, hop, htk, hhl'⟩)
    (fun now link hop hon => by
      refine ⟨?_, ?_⟩
      · by_contra hqu
        exact her ⟨c, now, link, rfl, hop, hon, .inl hqu⟩
      · by_contra hac
        exact her ⟨c, now, link, rfl, hop, hon, .inr (Bool.not_eq_false _ ▸ hac)⟩)
  rw [← hms]
  exact hpt.invariant (P := fun bytes v => v.Reliable bytes ∧ v.Busy) (fun bytes v m hal hor hv =>
      ⟨hv.1.move hal hor, hv.2.move hv.1 hal hor⟩) accepted hrl

end TcpConnection

namespace Opening

open TcpConnection

variable (o : Opening)

theorem reliable_conn : o.conn.sendSide.Reliable [] ∧ o.conn.sendSide.Busy := by
  obtain ⟨nxt, hnxt, hqt⟩ := TcpConnection.connect_cases
    (.new o.owner o.localAddr o.remote o.iss) o.now o.link
  rw [show o.conn.sendSide = _ from hqt.sendSide]
  exact ⟨⟨fun _ => ⟨rfl, rfl, rfl, hnxt, rfl, rfl⟩, fun hsy => (by cases hsy)⟩,
    fun hsy => (by cases hsy)⟩

theorem reliable_after (ops : List ConnOp)
    (hkp : ∀ e ∈ trace step (some o.conn) ops, KeepsStream e) {c : TcpConnection}
    (hc : o.after ops = some c) :
    c.sendSide.Reliable (acceptedIn (trace step (some o.conn) ops)) ∧ c.sendSide.Busy :=
  (o.life_invariant (P := fun log c => c.sendSide.Reliable (acceptedIn log) ∧ c.sendSide.Busy)
    o.reliable_conn (fun log c op _ h hkp hrl _ hst => by
      rw [acceptedIn_snoc]
      exact Reliable.step h hkp hrl hst) ops hkp c hc).2

end Opening

namespace TcpConnection

variable {c : TcpConnection} {accepted : List UInt8}

theorem not_reliable_close (h : c.Coherent) (hrl : c.sendSide.Reliable accepted)
    (hbs : c.sendSide.Busy) (hop : c.state = .established ∨ c.state = .closeWait)
    (her : c.sendBuf.contents ≠ [] ∨ c.retransmit.active) (now : Nat) (link : Link) :
    ∃ c', (c.apply (.close now link)).2 = some c' ∧ ¬c'.sendSide.Reliable accepted := by
  refine ⟨(c.close now link).2.1, rfl, ?_⟩
  have hal : c.sendSide.Allows .fin := before_fin h.ours hop
  rw [close_sendSide hop]
  exact SendSide.not_reliable_fin hrl hbs hal her

/-- In every life of a connection, the accepted bytes are kept in every state exactly if no `close`
comes early and no number half a circle away is acknowledged. -/
theorem stream_kept_iff (o : Opening) (ops : List ConnOp) :
    (∀ before, before <+: ops → ∀ c, o.after before = some c →
      c.sendSide.Reliable (acceptedIn (trace step (some o.conn) before))) ↔
      ∀ e ∈ trace step (some o.conn) ops, KeepsStream e := by
  constructor
  · intro hall
    induction ops using reverseRecOn with
    | nil => exact fun e he => (by cases he)
    | append_singleton ops op ih =>
      have hpr : ops <+: ops ++ [op] := prefix_append ops [op]
      have hkp := ih fun before hb => hall before (hb.trans hpr)
      intro e he
      rw [trace_snoc] at he
      rcases mem_append.1 he with he | he
      · exact hkp e he
      obtain rfl := mem_singleton.1 he
      -- the states before the step have the stream, so a bad step would show right after it
      have haf : ∀ c, o.after ops = some c → ∀ c', (c.apply op).2 = some c' →
          c'.sendSide.Reliable (acceptedIn (trace step (some o.conn) ops) ++ c.acceptedBy op) := by
        intro c hc c' hc'
        have hrun : o.after (ops ++ [op]) = some c' := by
          rw [Opening.after, run_snoc, show run step (some o.conn) ops = some c from hc]
          exact hc'
        have hrl := hall (ops ++ [op]) prefix_rfl c' hrun
        rwa [trace_snoc, show run step (some o.conn) ops = some c from hc, acceptedIn_snoc] at hrl
      constructor
      · rintro ⟨c, now, seg, payload, link, hpre, hop, htk, hhl⟩
        obtain rfl : op = .deliver now seg payload link := hop
        obtain ⟨c', hc', hex⟩ :=
          exceeds_of_halfway (o.coherent_after ops hpre) htk hhl now payload link
        exact absurd (haf c hpre c' hc').outstanding_le (Nat.not_le.2 hex)
      · rintro ⟨c, now, link, hpre, hop, hon, her⟩
        obtain rfl : op = .close now link := hop
        obtain ⟨hrl, hbs⟩ := o.reliable_after ops hkp hpre
        obtain ⟨c', hc', hls⟩ := not_reliable_close (o.coherent_after ops hpre) hrl hbs
          hon her now link
        refine hls ?_
        have hrl' := haf c hpre c' hc'
        rwa [show c.acceptedBy (.close now link) = [] from rfl, append_nil] at hrl'
  · intro hkp before hbf c hc
    obtain ⟨rest, rfl⟩ := hbf
    refine (o.reliable_after before (fun e he => hkp e ?_) hc).1
    rw [trace_append]
    exact mem_append_left _ he

/-- A byte is sent and acknowledged, and the connection is closed. -/
def sampleStream : List ConnOp :=
  [sampleSynAck, .send 2 [7] ⟨[], []⟩, .deliver 3 (samplePeer .ack 5001 1002) [] ⟨[], []⟩,
    .close 4 ⟨[], []⟩]

theorem stream_kept_acknowledged :
    ∃ c, sampleOpening.after sampleStream = some c ∧ c.state = .finWait1 ∧
      c.sendSide.Reliable [7] := by
  refine ⟨(sampleOpening.after sampleStream).get (by decide), (Option.some_get _).symm, by decide,
    (stream_kept_iff sampleOpening sampleStream).2 ?_ _ prefix_rfl _ (Option.some_get _).symm⟩
  intro e he
  simp only [sampleStream, trace, mem_cons, not_mem_nil, or_false] at he
  refine ⟨?_, ?_⟩
  · rintro ⟨c, now, seg, payload, link, hpre, hop, htk, hhl⟩
    rcases he with rfl | rfl | rfl | rfl
    · obtain rfl := Option.some.inj hpre
      exact absurd htk.1 (by decide)
    · cases hop
    · obtain rfl := Option.some.inj hpre
      cases hop
      exact absurd hhl (by decide)
    · cases hop
  · rintro ⟨c, now, link, hpre, hop, -, her⟩
    rcases he with rfl | rfl | rfl | rfl
    case inr.inr.inr =>
      obtain rfl := Option.some.inj hpre
      exact absurd her (by decide)
    all_goals cases hop

/-- The peer closes its window, a byte is sent into the buffer, and the connection is closed. -/
def sampleEarlyClose : List ConnOp :=
  [sampleSynAck, .deliver 2 { samplePeer .ack 5001 1001 with window := 0 } [] ⟨[], []⟩,
    .send 3 [7] ⟨[], []⟩, .close 4 ⟨[], []⟩]

/-- The FIN takes the sequence number of the byte, which stays in the buffer. -/
theorem close_drops_queued_byte :
    acceptedIn (trace step (some sampleOpening.conn) sampleEarlyClose) = [7] ∧
      ∃ c, sampleOpening.after sampleEarlyClose = some c ∧
        (c.state, c.retransmit.seq, c.retransmit.fin, c.retransmit.data, c.sendBuf.contents) =
          (.finWait1, 1001, true, [], [7]) ∧
        ¬c.sendSide.Reliable [7] := by
  refine ⟨by decide, ?_⟩
  have hvl : (sampleOpening.after sampleEarlyClose).map (fun c =>
      (c.state, c.retransmit.seq, c.retransmit.fin, c.retransmit.data, c.sendBuf.contents)) =
      some (.finWait1, 1001, true, [], [7]) := by decide
  obtain ⟨c, hc, hvl⟩ := Option.map_eq_some_iff.1 hvl
  refine ⟨c, hc, hvl, fun hrl => ?_⟩
  simp only [Prod.mk.injEq] at hvl
  obtain ⟨hst, -, -, -, hqu⟩ := hvl
  obtain ⟨sent, acked, hsr⟩ := hrl.stream (synced_eq.2 (by rw [hst]; decide))
  have hsn : c.ourFinSent := by
    rw [(sampleOpening.coherent_after sampleEarlyClose hc).ours, hst]
    rfl
  have hdr : c.sendBuf.contents = drop sent [7] := hsr.queue
  rw [hqu, hsr.fin hsn] at hdr
  cases hdr

end TcpConnection

end CleanSlate.Network.Tcp
