import CleanSlate.Network.Tcp.Verify.States

/-!
# The sending side of a connection

What a connection keeps of the bytes it has to send (`SendSide`), and the moves that change it. Every
step of a connection is a path of moves, whose guards say when the source makes them.
-/

namespace CleanSlate.Network.Tcp

open Lib List TcpConnection

variable {seg : TcpSegment}

/-- The bytes of a ring, oldest first. -/
def RingBuf.contents {n : Nat} [NeZero n] (self : RingBuf n) : List UInt8 := self.ring.toList

section
variable {n : Nat} [NeZero n] (r : RingBuf n)

theorem RingBuf.contents_push (data : List UInt8) :
    (r.push data).2.contents = r.contents ++ data.take (r.push data).1 := by
  refine (r.ring.toList_pushSlice data r.fits).trans (congrArg (r.contents ++ ·) ?_)
  change data.take (n - r.ring.len) = data.take (min data.length (n - r.ring.len))
  rw [Nat.min_comm, ← take_eq_take_min]

theorem RingBuf.contents_pop (cap : Nat) : r.contents = (r.pop cap).1 ++ (r.pop cap).2.contents :=
  r.ring.popSlice_eq cap

theorem RingBuf.length_pop_le (cap : Nat) : (r.pop cap).1.length ≤ cap := by
  refine (r.ring.length_popSlice cap).trans_le ?_
  omega

end

/-! ## Moves -/

structure SendSide where
  /-- the handshake is complete -/
  synced : Bool
  iss : UInt32
  una : UInt32
  nxt : UInt32
  /-- bytes accepted and not yet sent -/
  queue : List UInt8
  /-- the segment kept for retransmission -/
  unacked : Unacked
  finSent : Bool

variable {v : SendSide}

inductive Move where
  | syn (nxt : UInt32)
  | synAck
  | ack (a : UInt32)
  | queue (data : List UInt8)
  | segment (n : Nat)
  | fin

namespace SendSide

/-- When a move is made. -/
def Allows (v : SendSide) : Move → Prop
  | .syn nxt => v.synced = false ∧ (nxt = v.nxt ∨ nxt = v.iss + 1)
  | .synAck => v.synced = false
  | .ack a => v.synced ∧ ackValid a v.una v.nxt
  | .queue _ => v.synced ∧ v.finSent = false
  | .segment n => v.synced ∧ v.finSent = false ∧ v.unacked.active = false ∧
      0 < n ∧ n ≤ maxTcpPayload ∧ n ≤ v.queue.length
  | .fin => v.synced ∧ v.finSent = false

def move (v : SendSide) : Move → SendSide
  | .syn nxt => { v with nxt, unacked := ⟨true, v.iss, true, false, []⟩ }
  | .synAck => { v with
      synced := true
      una := v.iss + 1
      nxt := v.iss + 1
      unacked := { v.unacked with active := false } }
  | .ack a => { v with
      una := a
      unacked := if a = v.nxt then { v.unacked with active := false } else v.unacked }
  | .queue data => { v with queue := v.queue ++ data }
  | .segment n => { v with
      queue := v.queue.drop n
      nxt := v.nxt + UInt32.ofNat n
      unacked := ⟨true, v.nxt, false, false, v.queue.take n⟩ }
  | .fin => { v with
      finSent := true
      nxt := v.nxt + 1
      unacked := ⟨true, v.nxt, false, true, []⟩ }

/-- A sequence of moves, each of them allowed and with the property `R` where it is made. -/
inductive Path (R : SendSide → Move → Prop) : SendSide → List Move → SendSide → Prop where
  | nil {v : SendSide} : Path R v [] v
  | cons {v v' : SendSide} {m : Move} {ms : List Move} (hallowed : v.Allows m) (hR : R v m)
      (hrest : Path R (v.move m) ms v') : Path R v (m :: ms) v'

end SendSide

/-- Moves that are made whatever the peer and the application do. -/
def Move.isRoutine : Move → Bool
  | ack _ | fin => false
  | _ => true

/-- The bytes that a move accepts from the application. -/
def Move.accepted : Move → List UInt8
  | queue data => data
  | _ => []

namespace SendSide

variable {R : SendSide → Move → Prop}

theorem Path.single {m : Move} (hal : v.Allows m) (hR : R v m) : Path R v [m] (v.move m) :=
  .cons hal hR .nil

/-- A property that every move keeps, with the bytes accepted so far. -/
theorem Path.invariant {P : List UInt8 → SendSide → Prop} {v' : SendSide} {ms : List Move}
    (h : Path R v ms v')
    (next : ∀ bytes v m, v.Allows m → R v m → P bytes v → P (bytes ++ m.accepted) (v.move m))
    (bytes : List UInt8) (hP : P bytes v) : P (bytes ++ ms.flatMap Move.accepted) v' := by
  induction h generalizing bytes with
  | nil => simpa using hP
  | cons hal hR _ ih =>
    have := ih _ (next bytes _ _ hal hR hP)
    rwa [append_assoc] at this

end SendSide

/-! ## The moves of a step -/

namespace TcpConnection

def sendSide (c : TcpConnection) : SendSide where
  synced := c.state != .synSent
  iss := c.iss
  una := c.sndUna
  nxt := c.sndNxt
  queue := c.sendBuf.contents
  unacked := c.retransmit
  finSent := c.ourFinSent

variable {c c' : TcpConnection}

theorem Quiet.sendSide (h : Quiet c c') : c'.sendSide = c.sendSide := by
  obtain ⟨_, _, _, _, _, rfl⟩ := h
  rfl

theorem synced_eq : c.sendSide.synced ↔ c.state ≠ .synSent := by
  simp [sendSide]

/-- The connection looks at the acknowledgement number of the segment. -/
def TakesAck (c : TcpConnection) (seg : TcpSegment) : Prop :=
  c.state.takesAck ∧ seg.flags.contains .rst = false ∧ seg.flags.contains .ack

theorem takeAck_of_valid (hfl : seg.flags.contains .ack)
    (hvl : ackValid seg.ack c.sndUna c.sndNxt) :
    (c.takeAck seg).sendSide = c.sendSide.move (.ack seg.ack) := by
  unfold takeAck
  rw [if_pos (Bool.and_eq_true_iff.2 ⟨hfl, hvl⟩)]
  unfold applyAck
  rw [if_pos (show (seqLe c.sndUna seg.ack && seqLe seg.ack c.sndNxt) from hvl)]
  dsimp only [sendSide, SendSide.move]
  by_cases hall : seg.ack = c.sndNxt
  · rw [if_pos hall, if_pos hall]
  · rw [if_neg hall, if_neg hall]

theorem takeAck_sendSide (h : c.state ≠ .synSent) (seg : TcpSegment) :
    (c.takeAck seg).sendSide = c.sendSide ∨
      (seg.flags.contains .ack ∧ c.sendSide.Allows (.ack seg.ack) ∧
        (c.takeAck seg).sendSide = c.sendSide.move (.ack seg.ack)) := by
  by_cases hvl : (seg.flags.contains .ack && ackValid seg.ack c.sndUna c.sndNxt)
  · obtain ⟨hfl, hvl⟩ := Bool.and_eq_true_iff.1 hvl
    exact .inr ⟨hfl, ⟨synced_eq.2 h, hvl⟩, takeAck_of_valid hfl hvl⟩
  · exact .inl (congrArg sendSide (if_neg hvl))

/-- The fields of the sending side, apart from the state. -/
def sendFields (c : TcpConnection) :
    UInt32 × UInt32 × UInt32 × RingBuf tcpSendBufferBytes × Unacked × Bool :=
  (c.iss, c.sndUna, c.sndNxt, c.sendBuf, c.retransmit, c.ourFinSent)

theorem sendSide_congr (h : c.state ≠ .synSent) (h' : c'.state ≠ .synSent)
    (hfl : c'.sendFields = c.sendFields) : c'.sendSide = c.sendSide := by
  simp only [sendFields, Prod.mk.injEq] at hfl
  obtain ⟨hiss, huna, hnxt, hbuf, hun, hfin⟩ := hfl
  simp only [sendSide, hiss, huna, hnxt, hbuf, hun, hfin, bne_iff_ne.2 h, bne_iff_ne.2 h']

/-- What a handler makes of the sending side: it takes the acknowledgement. -/
def KeepsSend (c c' : TcpConnection) (seg : TcpSegment) : Prop :=
  c'.state ≠ .synSent ∧ c'.sendFields = (c.takeAck seg).sendFields

/-- What a handler does that takes the acknowledgement: it does not end the connection. -/
def Handles (c : TcpConnection) (seg : TcpSegment) (r : SegmentAction × TcpConnection) : Prop :=
  (r.1 = .none ∨ r.1 = .sendAck ∨ r.1 = .maybeSendData) ∧ KeepsSend c r.2 seg

theorem state_takeAck (seg : TcpSegment) : (c.takeAck seg).state = c.state :=
  congrArg (·.2.1) (c.phase_takeAck seg)

section

variable (h : c.state ≠ .synSent)
include h

section

variable (seg : TcpSegment)

section

variable (payload : List UInt8)

theorem handles_onEstablished : Handles c seg (c.onEstablished seg payload) := by
  have hst : (c.takeAck seg).state ≠ .synSent := by rwa [state_takeAck]
  unfold onEstablished
  dsimp only
  split
  · exact ⟨.inr (.inl rfl), hst, rfl⟩
  split
  · refine ⟨.inr (.inl rfl), ?_, by unfold acceptInOrder takeData; split <;> split <;> rfl⟩
    rcases phase_acceptInOrder _ seg payload with hph | hph
    · exact fun heq => hst ((congrArg (·.2.1) hph).symm.trans heq)
    · intro heq
      cases (congrArg (·.2.1) hph).symm.trans heq
  · split
    · exact ⟨.inr (.inr rfl), hst, rfl⟩
    · exact ⟨.inl rfl, hst, rfl⟩

theorem handles_onFinWait1 : Handles c seg (c.onFinWait1 seg payload) := by
  obtain ⟨hac, -, hfl⟩ := handles_onEstablished h seg payload
  refine ⟨hac, ?_, hfl⟩
  dsimp only [onFinWait1, afterFinWait1]
  split <;> decide

theorem handles_onFinWait2 : Handles c seg (c.onFinWait2 seg payload) := by
  have hst : (c.takeAck seg).state ≠ .synSent := by rwa [state_takeAck]
  unfold onFinWait2
  dsimp only
  split
  · exact ⟨.inr (.inl rfl), hst, rfl⟩
  split
  · exact ⟨.inr (.inl rfl), hst, rfl⟩
  · split
    · exact ⟨.inr (.inl rfl), by dsimp only; decide, rfl⟩
    · exact ⟨.inl rfl, hst, rfl⟩

theorem handles_onClosing : Handles c seg (c.onClosing seg payload) := by
  have hst : (c.takeAck seg).state ≠ .synSent := by rwa [state_takeAck]
  unfold onClosing
  dsimp only
  split <;> split
  · exact ⟨.inr (.inl rfl), by dsimp only; decide, rfl⟩
  · exact ⟨.inl rfl, by dsimp only; decide, rfl⟩
  · exact ⟨.inr (.inl rfl), hst, rfl⟩
  · exact ⟨.inl rfl, hst, rfl⟩

theorem handles_onCloseWait : Handles c seg (c.onCloseWait seg payload) := by
  have hst : (c.takeAck seg).state ≠ .synSent := by rwa [state_takeAck]
  unfold onCloseWait
  dsimp only
  split
  · exact ⟨.inr (.inl rfl), hst, rfl⟩
  · split
    · exact ⟨.inr (.inl rfl), hst, rfl⟩
    · exact ⟨.inr (.inr rfl), hst, rfl⟩

end

end

end

/-- States that take acknowledgements stay in the slot, and take them. -/
theorem onSegment_handles (h : c.failed = none) (htk : c.state.takesAck)
    (hrst : seg.flags.contains .rst = false) (payload : List UInt8) :
    Handles c seg (c.onSegment seg payload) := by
  rw [onSegment_eq_dispatch h hrst]
  unfold dispatch
  cases hs : c.state with
  | established => exact handles_onEstablished (by rw [hs]; decide) seg payload
  | finWait1 => exact handles_onFinWait1 (by rw [hs]; decide) seg payload
  | finWait2 => exact handles_onFinWait2 (by rw [hs]; decide) seg payload
  | closing => exact handles_onClosing (by rw [hs]; decide) seg payload
  | closeWait => exact handles_onCloseWait (by rw [hs]; decide) seg payload
  | _ =>
    rw [hs] at htk
    cases htk

theorem onSegment_takesAck (h : c.failed = none) (htk : c.TakesAck seg)
    (hvl : ackValid seg.ack c.sndUna c.sndNxt) (payload : List UInt8) :
    (c.onSegment seg payload).2.sendSide = c.sendSide.move (.ack seg.ack) := by
  obtain ⟨hst, hrst, hfl⟩ := htk
  obtain ⟨-, hsy, hfd⟩ := onSegment_handles h hst hrst payload
  have hs : c.state ≠ .synSent := fun hs => (by rw [hs] at hst; cases hst)
  exact (sendSide_congr (by rwa [state_takeAck]) hsy hfd).trans (takeAck_of_valid hfl hvl)

theorem onSynSent_sendSide (c : TcpConnection) (seg : TcpSegment) (payload : List UInt8) :
    (c.onSynSent seg payload).2.sendSide = c.sendSide ∨
      (c.onSynSent seg payload).2.sendSide = c.sendSide.move .synAck := by
  unfold onSynSent
  split
  · exact .inl rfl
  · split
    · exact .inl rfl
    · exact .inr rfl

/-- A segment completes the handshake, or carries an acknowledgement, or does not change the sending
side. -/
theorem onSegment_sendSide (h : c.Coherent) {payload : List UInt8}
    (h' : (c.onSegment seg payload).2.Coherent) :
    (c.onSegment seg payload).2.sendSide = c.sendSide ∨ (c.sendSide.Allows .synAck ∧
        (c.onSegment seg payload).2.sendSide = c.sendSide.move .synAck) ∨
      (c.TakesAck seg ∧ c.sendSide.Allows (.ack seg.ack) ∧
        (c.onSegment seg payload).2.sendSide = c.sendSide.move (.ack seg.ack)) := by
  by_cases htk : c.state.takesAck ∧ seg.flags.contains .rst = false
  · obtain ⟨htk, hrst⟩ := htk
    have hs : c.state ≠ .synSent := fun hs => (by rw [hs] at htk; cases htk)
    obtain ⟨-, hst, hfl⟩ := onSegment_handles h.failed htk hrst payload
    have hsm := sendSide_congr (by rwa [state_takeAck]) hst hfl
    rcases takeAck_sendSide hs seg with hta | ⟨hfg, hal, hta⟩
    · exact .inl (hsm.trans hta)
    · exact .inr (.inr ⟨⟨htk, hrst, hfg⟩, hal, hsm.trans hta⟩)
  rcases c.onSegment_cases h.failed seg payload with
    ⟨-, -, hfd, -⟩ | ⟨-, heq⟩ | ⟨hrst, heq⟩
  · exact absurd (h'.failed.symm.trans hfd) (Option.some_ne_none _).symm
  · exact .inl (congrArg (fun r => r.2.sendSide) heq)
  rw [heq] at h' ⊢
  unfold dispatch at h' ⊢
  cases hs : c.state with
  | synSent =>
    rcases c.onSynSent_sendSide seg payload with hsm | hsynAck
    · exact .inl hsm
    · exact .inr (.inl ⟨by simp [SendSide.Allows, sendSide, hs], hsynAck⟩)
  | timeWait =>
    dsimp only [onTimeWait]
    split <;> exact .inl rfl
  | lastAck =>
    simp only [hs] at h'
    dsimp only [onLastAck] at h' ⊢
    split
    · next hac =>
      rw [if_pos hac] at h'
      cases h'.live
    · split <;> exact .inl rfl
  | closed | reset => exact .inl rfl
  | _ => exact absurd ⟨by rw [hs]; rfl, hrst⟩ htk

theorem mayCarryData (h : ¬(!(c.state == .established || c.state == .closeWait))) :
    c.state = .established ∨ c.state = .closeWait := by
  simpa only [Bool.not_eq_true, Bool.not_eq_false', Bool.or_eq_true, beq_iff_eq] using h

theorem before_fin (h : c.ourFinSent = c.state.finSent)
    (hop : c.state = .established ∨ c.state = .closeWait) :
    c.sendSide.synced ∧ c.sendSide.finSent = false := by
  refine ⟨synced_eq.2 ?_, h.trans ?_⟩ <;> rcases hop with hs | hs <;> rw [hs] <;> decide

theorem takeSegment_sendSide (c : TcpConnection) (h : c.ourFinSent = c.state.finSent) (now : Nat) :
    (c.takeSegment now).2.sendSide = c.sendSide ∨ ∃ n, c.sendSide.Allows (.segment n) ∧
        (c.takeSegment now).2.sendSide = c.sendSide.move (.segment n) := by
  unfold takeSegment
  split
  · exact .inl rfl
  next hbs =>
  split
  · exact .inl rfl
  next hst =>
  dsimp only [popSendChunk]
  generalize hcap : min (min (min c.peerMss c.peerWindow) (UInt16.ofNat maxTcpPayload)).toNat
    maxTcpPayload = cap
  have hcn := c.sendBuf.contents_pop cap
  have hln := c.sendBuf.length_pop_le cap
  split
  · next hem =>
    refine .inl ?_
    rw [isEmpty_iff.1 hem, nil_append] at hcn
    simp only [sendSide, ← hcn]
  · next hch =>
    rw [Bool.or_eq_true, not_or, Bool.not_eq_true] at hbs
    have hop := mayCarryData hst
    obtain ⟨hsy, hfin⟩ := before_fin h hop
    refine .inr ⟨(c.sendBuf.pop cap).1.length, ⟨hsy, hfin, hbs.1, ?_, by omega, ?_⟩, ?_⟩
    · exact length_pos_iff.2 fun hnil => hch (isEmpty_iff.2 hnil)
    · change _ ≤ c.sendBuf.contents.length
      rw [hcn, length_append]
      omega
    · dsimp only [sendSide, SendSide.move, recordUnacked]
      rw [hcn, drop_left, take_left]

/-- The bytes that `send` takes over, whatever the link answers. -/
def acceptedBy (c : TcpConnection) : ConnOp → List UInt8
  | .send _ data _ =>
    match (c.queueSend data).1 with
    | .ok n => data.take n
    | .error _ => []
  | _ => []

theorem queueSend_sendSide (c : TcpConnection) (h : c.ourFinSent = c.state.finSent)
    (data : List UInt8) :
    (∃ e, (c.queueSend data).1 = .error e ∧ (c.queueSend data).2.sendSide = c.sendSide) ∨
      ∃ n, (c.queueSend data).1 = .ok n ∧ c.sendSide.Allows (.queue (data.take n)) ∧
        (c.queueSend data).2.sendSide = c.sendSide.move (.queue (data.take n)) := by
  unfold queueSend
  split
  · exact .inl ⟨_, rfl, rfl⟩
  split
  · exact .inl ⟨_, rfl, rfl⟩
  next hst =>
  have hps := c.sendBuf.contents_push data
  dsimp only
  split
  · next hfl =>
    obtain ⟨hzr, -⟩ := Bool.and_eq_true_iff.1 hfl
    rw [eq_of_beq hzr, take_zero, append_nil] at hps
    exact .inl ⟨_, rfl, by simp only [sendSide, hps]⟩
  · refine .inr ⟨_, rfl, before_fin h (mayCarryData hst), ?_⟩
    simp only [sendSide, SendSide.move, hps]

theorem recordFin_sendSide {next : TcpState}
    (hst : c.state = .established ∧ next = .finWait1 ∨ c.state = .closeWait ∧ next = .lastAck)
    (now : Nat) : (({ c with state := next, ourFinSent := true } : TcpConnection).recordFin
      now).sendSide = c.sendSide.move .fin := by
  have hnx : (next != .synSent) = c.sendSide.synced := by
    rw [synced_eq.2 (by rcases hst with ⟨hs, -⟩ | ⟨hs, -⟩ <;> rw [hs] <;> decide)]
    rcases hst with ⟨-, rfl⟩ | ⟨-, rfl⟩ <;> rfl
  simp only [sendSide, recordFin, recordUnacked, SendSide.move, hnx]

theorem close_sendSide (hop : c.state = .established ∨ c.state = .closeWait) (now : Nat)
    (link : Link) : (c.close now link).2.1.sendSide = c.sendSide.move .fin := by
  rcases c.close_cases now link with ⟨next, hst, hqt⟩ | ⟨hcl, -⟩
  · exact hqt.sendSide.trans (recordFin_sendSide hst now)
  · exact absurd hop hcl

variable {R : SendSide → Move → Prop} (hR : ∀ v m, m.isRoutine = true → R v m)
include hR

theorem Sends.path {now : Nat} (h : c.Coherent) (hsn : Sends now c c') :
    ∃ ms, SendSide.Path R c.sendSide ms c'.sendSide ∧ ms.flatMap Move.accepted = [] := by
  rcases hsn with hqt | hqt
  · exact ⟨[], hqt.sendSide ▸ .nil, rfl⟩
  · rw [hqt.sendSide]
    rcases c.takeSegment_sendSide h.ours now with hsm | ⟨n, hal, hmv⟩
    · exact ⟨[], hsm ▸ .nil, rfl⟩
    · exact ⟨[.segment n], hmv ▸ .single hal (hR _ _ rfl), rfl⟩

/-- The moves of a step that leaves the connection in its slot. -/
theorem Step.path {op : ConnOp} (h : c.Coherent) (hst : Step c op c')
    (hack : ∀ now seg payload link, op = .deliver now seg payload link → c.TakesAck seg →
      R c.sendSide (.ack seg.ack))
    (hfin : ∀ now link, op = .close now link → c.state = .established ∨ c.state = .closeWait →
      R c.sendSide .fin) :
    ∃ ms, SendSide.Path R c.sendSide ms c'.sendSide ∧
      ms.flatMap Move.accepted = c.acceptedBy op := by
  cases hst with
  | quiet hop hqt =>
    refine ⟨[], hqt.sendSide ▸ .nil, ?_⟩
    cases op with
    | send now data link => exact absurd rfl (hop now data link)
    | _ => rfl
  | @send now data link _ hsn =>
    obtain ⟨ms, hpt, hms⟩ := Sends.path hR (h.congr (c.phase_queueSend data)) hsn
    rcases c.queueSend_sendSide h.ours data with ⟨e, her, hsm⟩ | ⟨n, hok, hal, hmv⟩
    · rw [hsm] at hpt
      exact ⟨ms, hpt, by rw [hms, acceptedBy, her]⟩
    · rw [hmv] at hpt
      refine ⟨_, .cons hal (hR _ _ rfl) hpt, ?_⟩
      rw [flatMap_cons, hms, append_nil, acceptedBy, hok]
      rfl
  | @receive cap =>
    rw [receive_eq]
    exact ⟨[], .nil, rfl⟩
  | @close now link next _ hsa hqt =>
    have hon : c.state = .established ∨ c.state = .closeWait := hsa.imp And.left And.left
    obtain ⟨hsy, hse⟩ := before_fin h.ours hon
    rw [hqt.sendSide, recordFin_sendSide hsa now]
    exact ⟨[.fin], .single ⟨hsy, hse⟩ (hfin now link rfl hon), rfl⟩
  | @deliver now seg payload link _ hch hsn =>
    obtain ⟨ms, hpt, hms⟩ := Sends.path hR hch hsn
    rcases onSegment_sendSide h hch with hsm | ⟨hal, hmv⟩ | ⟨htk, hal, hmv⟩
    · exact ⟨ms, hsm ▸ hpt, hms⟩
    · rw [hmv] at hpt
      exact ⟨_, .cons hal (hR _ _ rfl) hpt, hms⟩
    · rw [hmv] at hpt
      exact ⟨_, .cons hal (hack now seg payload link rfl htk) hpt, hms⟩
  | @syn now link nxt _ hsa hnxt hqt =>
    rw [hqt.sendSide]
    refine ⟨[.syn nxt], .single ⟨?_, hnxt⟩ (hR _ _ rfl), rfl⟩
    simp [sendSide, hsa]
  | output hsn => exact Sends.path hR h hsn

end TcpConnection

end CleanSlate.Network.Tcp
