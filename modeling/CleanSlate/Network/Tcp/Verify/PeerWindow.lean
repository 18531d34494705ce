import CleanSlate.Network.Tcp.Verify.Table
import CleanSlate.Network.Tcp.Verify.Window

/-!
# The receive window of the peer

A data segment is no longer than `peer_window`. In ESTABLISHED that is the window of the last segment
that arrived, also of one that is dropped because it is out of sequence; in CLOSE-WAIT it is never
updated. As long as neither leaves too large a window on record (`WindowSlip`), that is at most the
window that the peer advertised last in an acceptable segment.
-/

namespace CleanSlate.Network.Tcp

open CleanSlate.Lib List

variable {log : List ConnEvent} {op : ConnOp} {out : Outbound}

namespace TcpConnection

variable {c c' : TcpConnection} {now : Nat} {seg : TcpSegment} {payload : List UInt8}

/-- Data may be sent. -/
def Talks (c : TcpConnection) : Prop := c.state = .established ∨ c.state = .closeWait

/-- The segment is acceptable: the SYN-ACK in SYN-SENT, and else one that starts at `rcv_nxt` or
occupies no sequence space. -/
def accepts (c : TcpConnection) (seg : TcpSegment) (payload : List UInt8) : Bool :=
  !seg.flags.contains .rst && if c.state = .synSent then
      seg.flags.contains .syn && seg.flags.contains .ack && seg.ack == c.iss + 1
    else !c.isUnacceptable seg payload

/-- What a step that sends new data hands to the stack; the timers repeat old data. -/
def transmits (c : TcpConnection) : ConnOp → List Outbound
  | .send now data link => (c.send now data ⟨link.answers, []⟩).2.2.sent
  | .deliver now seg payload link => (c.deliver now seg payload ⟨link.answers, []⟩).2.2.sent
  | .pollOutput now link => (c.pollOutput now ⟨link.answers, []⟩).2.sent
  | _ => []

/-- The window that an event advertises. -/
def advertises (e : ConnEvent) : Option UInt16 :=
  match e.pre, e.input with
  | some c, .deliver _ seg payload _ => if c.accepts seg payload then some seg.window else none
  | _, _ => none

/-- The window that the peer advertised last. -/
def advertised (log : List ConnEvent) : Option UInt16 := (log.filterMap advertises).getLast?

/-- A segment that is dropped in ESTABLISHED with a larger window than the one on record, or taken in
CLOSE-WAIT with a smaller one. -/
def WindowSlip (e : ConnEvent) : Prop :=
  match e.pre, e.input with
  | some c, .deliver _ seg payload _ =>
    seg.flags.contains .rst = false ∧
      (c.state = .established ∧ c.accepts seg payload = false ∧ c.peerWindow < seg.window ∨
        c.state = .closeWait ∧ c.accepts seg payload = true ∧ seg.window < c.peerWindow)
  | _, _ => False

/-- The window on record is at most the one advertised last. -/
def Tracks (log : List ConnEvent) (c : TcpConnection) : Prop :=
  c.Talks → ∃ window, advertised log = some window ∧ c.peerWindow ≤ window

theorem advertised_snoc (log : List ConnEvent) (e : ConnEvent) :
    advertised (log ++ [e]) = (advertises e).or (advertised log) := by
  unfold advertised
  rw [filterMap_snoc, getLast?_append]
  cases advertises e <;> rfl

theorem Tracks.congr (h : c.Tracks log) (hst : c'.state = c.state)
    (hwn : c'.peerWindow = c.peerWindow) : c'.Tracks log := by
  unfold Tracks Talks
  rw [hst, hwn]
  exact h

theorem Sends.talk (h : Sends now c c') : c'.state = c.state ∧ c'.peerWindow = c.peerWindow := by
  rcases h with ⟨_, _, _, _, _, rfl⟩ | ⟨_, _, _, _, _, rfl⟩
  · exact ⟨rfl, rfl⟩
  · obtain ⟨_, _, _, _, hsn⟩ := c.takeSegment_eq now
    rw [hsn]
    exact ⟨rfl, rfl⟩

/-! ## Segments that arrive -/

theorem onEstablished_peerWindow : (c.onEstablished seg payload).2.peerWindow = seg.window := by
  unfold onEstablished acceptInOrder takeData
  dsimp only
  repeat' split
  all_goals rfl

theorem onCloseWait_peerWindow : (c.onCloseWait seg payload).2.peerWindow = c.peerWindow := by
  obtain ⟨_, _, _, _, hack⟩ := c.takeAck_eq seg
  unfold onCloseWait takePayload takeData
  rw [hack]
  dsimp only
  split
  · rfl
  · split <;> rfl

theorem onSynSent_talks (hs : c.state = .synSent) (hrst : seg.flags.contains .rst = false)
    (htl : (c.onSynSent seg payload).2.Talks) :
    c.accepts seg payload = true ∧ (c.onSynSent seg payload).2.peerWindow = seg.window := by
  have hsl : ¬c.Talks := by
    rintro (h | h) <;> rw [hs] at h <;> cases h
  unfold onSynSent at htl ⊢
  split at htl
  · exact absurd htl hsl
  next hfl =>
  split at htl
  · exact absurd htl hsl
  next hack =>
  rw [if_neg hfl, if_neg hack]
  simp only [Bool.or_eq_true, Bool.not_eq_true', not_or, Bool.not_eq_false] at hfl
  exact ⟨by simp [accepts, hs, hrst, hfl, not_not.1 hack], rfl⟩

theorem Tracks.onSegment {link : Link} (h : c.Coherent)
    (h' : (c.onSegment seg payload).2.Coherent) (htr : c.Tracks log)
    (hsl : ¬WindowSlip (.of step (some c) (.deliver now seg payload link))) :
    (c.onSegment seg payload).2.Tracks
      (log ++ [.of step (some c) (.deliver now seg payload link)]) := by
  intro htl
  rw [advertised_snoc]
  change ∃ window, (if c.accepts seg payload then some seg.window else none).or _ = _ ∧ _
  -- our FIN was not sent
  have hfin : c.state.finSent = false := by
    have hor : (c.onSegment seg payload).2.ourFinSent = c.ourFinSent := by
      rcases onSegment_sendSide h h' with hs | ⟨-, hs⟩ | ⟨-, -, hs⟩ <;>
        exact congrArg SendSide.finSent hs
    rw [← h.ours, ← hor, h'.ours]
    rcases htl with hs | hs <;> rw [hs] <;> rfl
  rcases c.onSegment_cases h.failed seg payload with ⟨-, -, hfl, -⟩ | ⟨hrst, heq⟩ | ⟨hrst, heq⟩
  · exact absurd (h'.failed.symm.trans hfl) (Option.some_ne_none _).symm
  · rw [heq] at htl ⊢
    rw [show c.accepts seg payload = false by simp [accepts, hrst]]
    exact htr htl
  rw [heq] at htl ⊢
  unfold dispatch at htl ⊢
  cases hs : c.state with
  | synSent =>
    simp only [hs] at htl
    obtain ⟨hac, hwn⟩ := onSynSent_talks hs hrst htl
    rw [hac, hwn]
    exact ⟨_, rfl, UInt16.le_refl _⟩
  | established =>
    rw [onEstablished_peerWindow]
    cases hac : c.accepts seg payload with
    | true => exact ⟨_, rfl, UInt16.le_refl _⟩
    | false =>
      obtain ⟨window, hwn, hle⟩ := htr (.inl hs)
      have hlw := UInt16.not_lt.1 fun hlt => hsl ⟨hrst, .inl ⟨hs, hac, hlt⟩⟩
      exact ⟨window, hwn, UInt16.le_trans hlw hle⟩
  | closeWait =>
    rw [onCloseWait_peerWindow]
    cases hac : c.accepts seg payload with
    | true => exact ⟨_, rfl, UInt16.not_lt.1 fun hlt => hsl ⟨hrst, .inr ⟨hs, hac, hlt⟩⟩⟩
    | false => exact htr (.inr hs)
  | closed | reset =>
    have hlv := h.live
    rw [hs] at hlv
    cases hlv
  | _ =>
    rw [hs] at hfin
    cases hfin

/-! ## Lives of a connection -/

theorem Step.talk (hst : Step c op c')
    (hdl : ∀ now seg payload link, op ≠ .deliver now seg payload link) (htl : c'.Talks) :
    c'.state = c.state ∧ c'.peerWindow = c.peerWindow := by
  cases hst with
  | quiet _ hqt | syn _ _ hqt =>
    obtain ⟨_, _, _, _, _, rfl⟩ := hqt
    exact ⟨rfl, rfl⟩
  | @send now data link _ hsn =>
    obtain ⟨_, hqu⟩ := c.queueSend_eq data
    rw [hqu] at hsn
    exact hsn.talk
  | receive =>
    rw [receive_eq]
    exact ⟨rfl, rfl⟩
  | close hsa hqt =>
    obtain ⟨_, _, _, _, _, rfl⟩ := hqt
    rcases hsa with ⟨-, rfl⟩ | ⟨-, rfl⟩ <;> rcases htl with hs | hs <;> cases hs
  | deliver => exact absurd rfl (hdl _ _ _ _)
  | output hsn => exact hsn.talk

theorem Tracks.step (h : c.Coherent)
    (hsl : ¬WindowSlip (.of TcpConnection.step (some c) op)) (htr : c.Tracks log)
    (heq : (c.apply op).2 = some c') (hst : Step c op c') :
    c'.Tracks (log ++ [.of TcpConnection.step (some c) op]) := by
  cases op with
  | deliver now seg payload link =>
    obtain ⟨hch, hsn⟩ := h.deliver_sends heq
    exact (htr.onSegment h hch hsl).congr hsn.talk.1 hsn.talk.2
  | free => cases heq
  | _ =>
    intro htl
    obtain ⟨hsa, hwn⟩ := hst.talk nofun htl
    rw [advertised_snoc]
    exact htr.congr hsa hwn htl

/-- A new data segment is sent when data may be sent, and fits the window on record. -/
theorem takeSegment_fits {segment : TcpSegment} {chunk : List UInt8}
    (h : (c.takeSegment now).1 = some (segment, chunk)) :
    c.Talks ∧ chunk.length ≤ c.peerWindow.toNat := by
  unfold takeSegment at h
  split at h
  · cases h
  split at h
  · cases h
  next hst =>
  dsimp only [popSendChunk] at h
  split at h
  · cases h
  · cases h
    have hmin : ∀ a b : UInt16, (min a b).toNat = min a.toNat b.toNat := fun a b => by
      change (if a ≤ b then a else b).toNat = _
      split <;> rename_i hle <;> rw [UInt16.le_iff_toNat_le] at hle <;> omega
    refine ⟨mayCarryData hst, (c.sendBuf.length_pop_le _).trans ?_⟩
    rw [hmin, hmin]
    omega

theorem trySendData_fits {answers : List (Except NetworkError Unit)}
    (hout : out ∈ (c.trySendData now ⟨answers, []⟩).2.2.sent) :
    c.Talks ∧ out.payload.length ≤ c.peerWindow.toNat := by
  unfold trySendData at hout
  split at hout
  · cases hout
  · next segment chunk c' heq =>
    rw [transmitTcp_sent] at hout
    obtain rfl := mem_singleton.1 hout
    exact takeSegment_fits (congrArg Prod.fst heq)

theorem tracks_conn (o : Opening) : o.conn.Tracks [] := by
  intro htl
  obtain ⟨nxt, -, _, _, _, _, _, heq⟩ := connect_cases
    (.new o.owner o.localAddr o.remote o.iss) o.now o.link
  rw [show o.conn = _ from heq] at htl
  rcases htl with hs | hs <;> cases hs

/-- A step sends new data only as the window on record allows, after the segment it delivers. -/
theorem transmits_fits (h : c.Coherent)
    (hsl : ¬WindowSlip (.of TcpConnection.step (some c) op)) (htr : c.Tracks log)
    (hout : out ∈ c.transmits op) (hdt : out.payload ≠ []) :
    ∃ window, advertised (log ++ [.of TcpConnection.step (some c) op]) = some window ∧
      out.payload.length ≤ window.toNat := by
  have hbr : ∀ {dst segment}, out ∈ [(⟨dst, segment, []⟩ : Outbound)] → False := fun hmem =>
    hdt (congrArg Outbound.payload (mem_singleton.1 hmem))
  cases op with
  | send now data link =>
    obtain ⟨_, hqu⟩ := c.queueSend_eq data
    have hft : out ∈ ((c.queueSend data).2.trySendData now ⟨link.answers, []⟩).2.2.sent := by
      unfold transmits send at hout
      dsimp only at hout
      split at hout
      · cases hout
      split at hout
      · cases hout
      split at hout <;> rename_i heq
      · cases hout
      · rwa [heq]
    rw [hqu] at hft
    obtain ⟨htl, hln⟩ := trySendData_fits hft
    obtain ⟨window, hwn, hle⟩ := htr htl
    exact ⟨window, (advertised_snoc _ _).trans hwn, hln.trans hle⟩
  | deliver now seg payload link =>
    unfold transmits deliver at hout
    dsimp only at hout
    split at hout <;> rename_i c' hseg
    · have hsn : out ∈ (c'.sendAck ⟨link.answers, []⟩).2.2.sent := by
        split at hout <;> rename_i heq <;> rwa [heq]
      rw [sendAck, transmitTcp_sent] at hsn
      exact (hbr hsn).elim
    · obtain ⟨htl, hln⟩ := trySendData_fits hout
      have hch : (c.onSegment seg payload).2.Coherent := by
        rcases h.onSegment seg payload with ⟨e, hac, -⟩ | hac | hch
        · rw [hseg] at hac
          cases hac
        · rw [hseg] at hac
          cases hac
        · exact hch
      have haf := htr.onSegment h hch hsl
      rw [hseg] at haf
      obtain ⟨window, hwn, hle⟩ := haf htl
      exact ⟨window, hwn, hln.trans hle⟩
    all_goals cases hout
  | pollOutput now link =>
    unfold transmits pollOutput at hout
    dsimp only at hout
    split at hout
    · have hsn : out ∈ (c.sendSyn now ⟨link.answers, []⟩).2.2.sent := by
        split at hout <;> rename_i heq <;> rwa [heq]
      rw [sendSyn_sent] at hsn
      exact (hbr hsn).elim
    split at hout
    · obtain ⟨htl, hln⟩ := trySendData_fits hout
      obtain ⟨window, hwn, hle⟩ := htr htl
      exact ⟨window, (advertised_snoc _ _).trans hwn, hln.trans hle⟩
    · cases hout
  | _ => cases hout

/-- As long as no window slips, a new data segment carries no more bytes than the peer advertised last
in an acceptable segment. -/
theorem new_data_fits_window (o : Opening) (ops : List ConnOp)
    (hsl : ∀ e ∈ trace step (some o.conn) ops, ¬WindowSlip e) :
    ∀ before op c, before ++ [op] <+: ops → o.after before = some c →
      ∀ out ∈ c.transmits op, out.payload ≠ [] →
        ∃ window, advertised (trace step (some o.conn) (before ++ [op])) = some window ∧
          out.payload.length ≤ window.toNat := by
  rintro before op c ⟨rest, rfl⟩ hc out hout hdt
  have hrun : run step (some o.conn) before = some c := hc
  rw [trace_append, trace_snoc, hrun] at hsl
  have hsl := fun e he => hsl e (mem_append_left _ he)
  obtain ⟨h, htr⟩ := o.life_invariant (P := Tracks) (tracks_conn o)
    (fun _ _ _ _ h hsl htr heq hst => htr.step h hsl heq hst) before
    (fun e he => hsl e (mem_append_left _ he)) c hc
  rw [trace_snoc, hrun]
  exact transmits_fits h (hsl _ mem_concat_self) htr hout hdt

theorem new_data_fits_window_one_byte :
    ∃ window, advertised (trace step (some sampleOpening.conn)
      [sampleSynAck, .send 2 [7] ⟨[], []⟩]) = some window ∧ 1 ≤ window.toNat := by
  have h := new_data_fits_window sampleOpening [sampleSynAck, .send 2 [7] ⟨[], []⟩]
    (forall_mem_cons.2 ⟨fun hsl => absurd hsl.2 (by decide),
      forall_mem_singleton.2 fun hsl => hsl⟩)
    [sampleSynAck] (.send 2 [7] ⟨[], []⟩) _ prefix_rfl rfl
  exact h _ (mem_singleton.2 rfl) (by decide)

/-- The peer ends its stream, and then closes its window to one byte. -/
def sampleShut : List ConnOp :=
  [sampleSynAck, .deliver 2 (samplePeer (TcpFlags.fin.union .ack) 5001 1001) [] ⟨[], []⟩,
    .deliver 3 { samplePeer .ack 5002 1001 with window := 1 } [] ⟨[], []⟩]

/-- In CLOSE-WAIT two bytes are sent at once. -/
theorem closeWait_exceeds_window :
    advertised (trace step (some sampleOpening.conn) (sampleShut ++ [.send 4 [7, 8] ⟨[], []⟩])) =
      some 1 ∧
    (sampleOpening.after sampleShut).map (fun c => (c.state,
      (c.transmits (.send 4 [7, 8] ⟨[], []⟩)).map (·.payload))) = some (.closeWait, [[7, 8]]) := by
  decide

end TcpConnection

end CleanSlate.Network.Tcp
