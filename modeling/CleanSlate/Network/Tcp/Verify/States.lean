import CleanSlate.Network.Tcp.Life

/-!
# Steps and states of a connection

A step of a connection is made of a few moves on its sequence numbers and buffers, and of changes to
timers and flags that no invariant of the streams depends on (`Quiet`). The lemmas `*_cases` take the
steps apart once.

A connection in its slot has not failed and is in no terminal state, and its state says whether the
FIN of either side has been sent or seen (`Coherent`).
-/

namespace CleanSlate.Network.Tcp

open Lib

variable {c : TcpConnection} {payload : List UInt8} {op : ConnOp}

namespace TcpState

/-- States after our FIN was sent. -/
def finSent : TcpState → Bool
  | finWait1 | finWait2 | closing | timeWait | lastAck => true
  | _ => false

/-- States after the FIN of the peer was accepted. -/
def finSeen : TcpState → Bool
  | closeWait | lastAck | closing | timeWait => true
  | _ => false

/-- States whose handlers look at the acknowledgement number of every segment. -/
def takesAck : TcpState → Bool
  | established | finWait1 | finWait2 | closing | closeWait => true
  | _ => false

end TcpState

namespace TcpConnection

/-! ## Quiet changes -/

/-- `c'` differs from `c` in timers and in the SYN that is to be sent again. -/
def Quiet (c c' : TcpConnection) : Prop := ∃ pending connect timeWait rto retries, c' = { c with
    pendingSyn := pending
    connectDeadline := connect
    timeWaitDeadline := timeWait
    rtoDeadline := rto
    rtoRetries := retries }

theorem Quiet.refl (c : TcpConnection) : Quiet c c := ⟨_, _, _, _, _, rfl⟩

variable {c' : TcpConnection} {link : Link} {now : Nat} {seg : TcpSegment}

theorem Quiet.trans {c'' : TcpConnection} (h : Quiet c c') (h' : Quiet c' c'') : Quiet c c'' := by
  obtain ⟨_, _, _, _, _, rfl⟩ := h
  obtain ⟨_, _, _, _, _, rfl⟩ := h'
  exact ⟨_, _, _, _, _, rfl⟩

variable (c : TcpConnection)

theorem quiet_onUnreachable : Quiet c c.onUnreachable := by
  unfold onUnreachable
  split
  · exact ⟨_, _, _, _, _, rfl⟩
  · exact .refl c

theorem quiet_transmitTcp (segment : TcpSegment) (payload : List UInt8) (link : Link) :
    Quiet c (c.transmitTcp segment payload link).2.1 := by
  unfold transmitTcp
  split
  · exact c.quiet_onUnreachable
  · exact .refl c

theorem quiet_sendAck (link : Link) : Quiet c (c.sendAck link).2.1 := c.quiet_transmitTcp _ _ _

theorem quiet_restart (now : Nat) :
    Quiet c (if c.state = .timeWait then c.enterTimeWait now else c) := by
  split
  · next hst =>
    refine ⟨c.pendingSyn, c.connectDeadline, some (now + tcpTimeWaitTicks), c.rtoDeadline,
      c.rtoRetries, ?_⟩
    rw [enterTimeWait, ← hst]
  · exact .refl c

theorem quiet_retransmitAt (now : Nat) (link : Link) : Quiet c (c.retransmitAt now link).2.1 := by
  unfold retransmitAt
  split
  · exact .refl c
  next segment payload _ =>
  have hqt := c.quiet_transmitTcp segment payload link
  split
  · next htr =>
    rw [htr] at hqt
    exact hqt
  · next htr =>
    rw [htr] at hqt
    refine hqt.trans ?_
    split
    · exact ⟨_, _, _, _, _, rfl⟩
    · exact .refl _

/-! ## Taking the steps apart -/

/-- The SYN is kept for retransmission, and counts as sent if the stack took it. -/
theorem sendSyn_cases (now : Nat) (link : Link) : ∃ nxt, (nxt = c.sndNxt ∨ nxt = c.iss + 1) ∧
      Quiet { c with retransmit := ⟨true, c.iss, true, false, []⟩, sndNxt := nxt }
        (c.sendSyn now link).2.1 := by
  have hqt : Quiet { c with retransmit := ⟨true, c.iss, true, false, []⟩ }
      ((c.recordUnacked c.iss [] true false now).touchConnectDeadline now) := ⟨_, _, _, _, _, rfl⟩
  unfold sendSyn
  dsimp only
  split
  · exact ⟨c.sndNxt, .inl rfl, hqt.trans (quiet_onUnreachable _)⟩
  · exact ⟨c.iss + 1, .inr rfl, ⟨_, _, _, _, _, rfl⟩⟩
  · exact ⟨c.sndNxt, .inl rfl, hqt⟩

theorem trySendData_cases (now : Nat) (link : Link) :
    Quiet (c.takeSegment now).2 (c.trySendData now link).2.1 := by
  unfold trySendData
  split
  · next heq =>
    rw [heq]
    exact .refl _
  · next heq =>
    rw [heq]
    exact quiet_transmitTcp _ _ _ _

/-- A timer ends the connection, or changes nothing but timers. -/
theorem tickTimers_cases (now : Nat) (h : c.failed = none) :
    (∃ e c', c.tickTimers now = (.failed e, c') ∧ c'.freeUnlessBuffered = none) ∨
      (c.tickTimers now).1 = .closed ∨
      (((c.tickTimers now).1 = .retransmit ∨ (c.tickTimers now).1 = .none) ∧
        Quiet c (c.tickTimers now).2) := by
  have hrt : ∀ c, (∃ e c', c.tickRetransmit now = (.failed e, c') ∧ c'.freeUnlessBuffered = none) ∨
      (((c.tickRetransmit now).1 = .retransmit ∨ (c.tickRetransmit now).1 = .none) ∧
        Quiet c (c.tickRetransmit now).2) := by
    intro c
    unfold tickRetransmit
    split
    · exact .inl ⟨_, _, rfl, rfl⟩
    split
    · split
      · exact .inl ⟨_, _, rfl, rfl⟩
      · exact .inr ⟨.inl rfl, _, _, _, _, _, rfl⟩
    · exact .inr ⟨.inr rfl, .refl c⟩
  unfold tickTimers
  split
  · next e hfl => exact absurd (hfl.symm.trans h) (Option.some_ne_none e)
  dsimp only
  split
  · split
    · exact .inr (.inl rfl)
    rcases hrt { c with
        timeWaitDeadline := some (c.timeWaitDeadline.getD (now + tcpTimeWaitTicks)) } with
      hfl | ⟨hac, hqt⟩
    · exact .inl hfl
    · exact .inr (.inr ⟨hac, Quiet.trans ⟨_, _, _, _, _, rfl⟩ hqt⟩)
  · rcases hrt c with hfl | hqt
    · exact .inl hfl
    · exact .inr (.inr hqt)

variable {c}

theorem pollTimers_cases (h : c.failed = none) (heq : (c.pollTimers now link).2.1 = some c') :
    Quiet c c' := by
  unfold pollTimers at heq
  rcases c.tickTimers_cases now h with ⟨e, cf, htc, hfr⟩ | hcl | ⟨hac, hqt⟩
  · rw [htc] at heq
    exact absurd (hfr.symm.trans heq) (Option.some_ne_none c').symm
  · split at heq <;> rename_i htc <;> rw [htc] at hcl <;> cases hcl
    cases heq
  split at heq <;> rename_i htc <;> rw [htc] at hac hqt
  · cases heq
    exact hqt.trans (quiet_retransmitAt _ now link)
  · rcases hac with hac | hac <;> cases hac
  · rcases hac with hac | hac <;> cases hac
  · cases heq
    exact hqt

/-- A reset ends a connection or is dropped; other segments go to the handler of the state. -/
theorem onSegment_cases (c : TcpConnection) (h : c.failed = none) (seg : TcpSegment)
    (payload : List UInt8) :
    (seg.flags.contains .rst ∧ (c.onSegment seg payload).1 = .failed .reset ∧
      (c.onSegment seg payload).2.failed = some .reset ∧
      (c.onSegment seg payload).2.freeUnlessBuffered = none) ∨
    (seg.flags.contains .rst ∧ c.onSegment seg payload = (.none, c)) ∨
    (seg.flags.contains .rst = false ∧ c.onSegment seg payload = c.dispatch seg payload) := by
  unfold onSegment
  split
  · next e hfl => exact absurd (hfl.symm.trans h) (Option.some_ne_none e)
  split
  · next hrst =>
    split
    · exact .inl ⟨hrst, rfl, rfl, rfl⟩
    · exact .inr (.inl ⟨hrst, rfl⟩)
  · next hrst => exact .inr (.inr ⟨Bool.not_eq_true _ ▸ hrst, rfl⟩)

theorem onSegment_eq_dispatch (h : c.failed = none) (hrst : seg.flags.contains .rst = false)
    (payload : List UInt8) : c.onSegment seg payload = c.dispatch seg payload := by
  rcases c.onSegment_cases h seg payload with ⟨hrst', -⟩ | ⟨hrst', -⟩ | ⟨-, heq⟩
  · exact absurd (hrst.symm.trans hrst') Bool.false_ne_true
  · exact absurd (hrst.symm.trans hrst') Bool.false_ne_true
  · exact heq

/-- After a segment was processed, an acknowledgement or data may be sent. -/
theorem deliver_cases (heq : (c.deliver now seg payload link).2.1 = some c') :
    ((c.onSegment seg payload).1 = .sendAck ∧ Quiet (c.onSegment seg payload).2 c') ∨
    ((c.onSegment seg payload).1 = .maybeSendData ∧
      Quiet ((c.onSegment seg payload).2.takeSegment now).2 c') ∨
    (∃ e, (c.onSegment seg payload).1 = .failed e ∧
      (c.onSegment seg payload).2.freeUnlessBuffered = some c') ∨
    ((c.onSegment seg payload).1 = .none ∧ c' = (c.onSegment seg payload).2) := by
  unfold deliver at heq
  split at heq <;> rename_i hseg <;> rw [hseg]
  · refine .inl ⟨rfl, ?_⟩
    have hqt := quiet_sendAck (c.onSegment seg payload).2 link
    rw [hseg] at hqt
    split at heq <;> rename_i hsn <;> rw [hsn] at hqt <;> cases heq
    · exact hqt
    · exact hqt.trans (quiet_restart _ now)
  · refine .inr (.inl ⟨rfl, ?_⟩)
    cases heq
    exact trySendData_cases _ now link
  · cases heq
  · exact .inr (.inr (.inl ⟨_, rfl, heq⟩))
  · cases heq
    exact .inr (.inr (.inr ⟨rfl, rfl⟩))

section

variable (c : TcpConnection) (now : Nat) (link : Link)

theorem pollOutput_cases :
    (c.state = .synSent ∧ Quiet (c.sendSyn now link).2.1 (c.pollOutput now link).1) ∨
      Quiet (c.takeSegment now).2 (c.pollOutput now link).1 ∨ (c.pollOutput now link).1 = c := by
  unfold pollOutput needsSynRetry
  split
  · next hrt =>
    have hst : c.state = .synSent := eq_of_beq (Bool.and_eq_true_iff.1 hrt).2
    refine .inl ⟨hst, ?_⟩
    split <;> rename_i hsn <;> rw [hsn]
    · exact ⟨_, _, _, _, _, rfl⟩
    · exact .refl _
  · split
    · exact .inr (.inl (c.trySendData_cases now link))
    · exact .inr (.inr rfl)

theorem send_cases (data : List UInt8) (link : Link) :
    (c.send now data link).2.1 = (c.queueSend data).2 ∨
      Quiet ((c.queueSend data).2.takeSegment now).2 (c.send now data link).2.1 ∨
      c.state.isTerminal := by
  unfold send
  split
  · next h => exact .inr (.inr (by rw [h]; rfl))
  split
  · next h => exact .inr (.inr h)
  · split <;> rename_i hqu <;> rw [hqu]
    · exact .inl rfl
    · exact .inr (.inl (trySendData_cases _ now link))

theorem close_cases :
    (∃ next, (c.state = .established ∧ next = .finWait1 ∨ c.state = .closeWait ∧ next = .lastAck) ∧
      Quiet (({ c with state := next, ourFinSent := true } : TcpConnection).recordFin now)
        (c.close now link).2.1) ∨
      (¬(c.state = .established ∨ c.state = .closeWait) ∧ (c.close now link).2.1 = c) := by
  unfold close startClose
  by_cases hes : c.state = .established
  · rw [if_pos hes]
    exact .inl ⟨_, .inl ⟨hes, rfl⟩, quiet_transmitTcp _ _ _ _⟩
  rw [if_neg hes]
  by_cases hwt : c.state = .closeWait
  · rw [if_pos hwt]
    exact .inl ⟨_, .inr ⟨hwt, rfl⟩, quiet_transmitTcp _ _ _ _⟩
  · rw [if_neg hwt]
    exact .inr ⟨not_or.2 ⟨hes, hwt⟩, rfl⟩

theorem connect_cases :
    ∃ nxt, (nxt = c.sndNxt ∨ nxt = c.iss + 1) ∧
      Quiet { c with retransmit := ⟨true, c.iss, true, false, []⟩, sndNxt := nxt }
        (c.connect now link).1 := by
  obtain ⟨nxt, hnxt, hqt⟩ := sendSyn_cases (c.onConnectStart now) now link
  have hst : Quiet { c with retransmit := ⟨true, c.iss, true, false, []⟩, sndNxt := nxt }
      { c.onConnectStart now with
        retransmit := ⟨true, c.iss, true, false, []⟩, sndNxt := nxt } := ⟨_, _, _, _, _, rfl⟩
  refine ⟨nxt, hnxt, hst.trans ?_⟩
  unfold connect
  split <;> rename_i hsn <;> rw [hsn] at hqt
  · exact hqt.trans (quiet_onUnreachable _)
  · exact hqt.trans ⟨_, _, _, _, _, rfl⟩

end

/-! ## Coherence -/

/-- What the state of a connection says. -/
structure Coherent (c : TcpConnection) : Prop where
  failed : c.failed = none
  live : c.state.isTerminal = false
  ours : c.ourFinSent = c.state.finSent
  peers : c.peerFinSeen = c.state.finSeen

/-- The fields that `Coherent` is about. -/
def phase (c : TcpConnection) : Option NetworkError × TcpState × Bool × Bool :=
  (c.failed, c.state, c.ourFinSent, c.peerFinSeen)

theorem Coherent.congr (h : c.Coherent) (heq : c'.phase = c.phase) : c'.Coherent := by
  simp only [phase, Prod.mk.injEq] at heq
  obtain ⟨hfl, hst, hor, hpr⟩ := heq
  exact ⟨by rw [hfl, h.failed], by rw [hst, h.live], by rw [hor, hst, h.ours],
    by rw [hpr, hst, h.peers]⟩

theorem Quiet.coherent (hqt : Quiet c c') (h : c.Coherent) : c'.Coherent := by
  obtain ⟨_, _, _, _, _, rfl⟩ := hqt
  exact h.congr rfl

variable (c)

theorem takeSegment_eq (now : Nat) : ∃ sendBuf sndNxt retransmit rtoDeadline,
    (c.takeSegment now).2 = { c with sendBuf, sndNxt, retransmit, rtoDeadline } := by
  unfold takeSegment
  split
  · exact ⟨_, _, _, _, rfl⟩
  split
  · exact ⟨_, _, _, _, rfl⟩
  · dsimp only [popSendChunk]
    split <;> exact ⟨_, _, _, _, rfl⟩

theorem takeAck_eq (seg : TcpSegment) : ∃ sndUna retransmit rtoDeadline rtoRetries,
    c.takeAck seg = { c with sndUna, retransmit, rtoDeadline, rtoRetries } := by
  unfold takeAck applyAck
  split
  · split
    · dsimp only
      split <;> exact ⟨_, _, _, _, rfl⟩
    · exact ⟨_, _, _, _, rfl⟩
  · exact ⟨_, _, _, _, rfl⟩

theorem queueSend_eq (data : List UInt8) :
    ∃ sendBuf, (c.queueSend data).2 = { c with sendBuf } := by
  unfold queueSend
  split
  · exact ⟨_, rfl⟩
  · split
    · exact ⟨_, rfl⟩
    · dsimp only
      split <;> exact ⟨_, rfl⟩

theorem receive_eq (cap : Nat) :
    (c.receive cap).2 = { c with recvBuf := (c.recvBuf.pop cap).2 } := by
  unfold receive
  dsimp only
  split
  · rfl
  · split
    · rfl
    · split <;> rfl

theorem phase_takeSegment (now : Nat) : (c.takeSegment now).2.phase = c.phase := by
  obtain ⟨_, _, _, _, h⟩ := c.takeSegment_eq now
  rw [h]
  rfl

theorem phase_takeAck (seg : TcpSegment) : (c.takeAck seg).phase = c.phase := by
  obtain ⟨_, _, _, _, h⟩ := c.takeAck_eq seg
  rw [h]
  rfl

theorem phase_queueSend (data : List UInt8) : (c.queueSend data).2.phase = c.phase := by
  obtain ⟨_, h⟩ := c.queueSend_eq data
  rw [h]
  rfl

theorem phase_acceptInOrder (seg : TcpSegment) (payload : List UInt8) :
    (c.acceptInOrder seg payload).phase = c.phase ∨
      (c.acceptInOrder seg payload).phase = (c.failed, .closeWait, c.ourFinSent, true) := by
  unfold acceptInOrder takeData
  dsimp only
  split <;> split
  · exact .inr rfl
  · exact .inr rfl
  · exact .inl rfl
  · exact .inl rfl

theorem phase_onEstablished (seg : TcpSegment) (payload : List UInt8) :
    (c.onEstablished seg payload).2.phase = c.phase ∨
      (c.onEstablished seg payload).2.phase = (c.failed, .closeWait, c.ourFinSent, true) := by
  obtain ⟨_, _, _, _, hack⟩ := c.takeAck_eq seg
  unfold onEstablished
  rw [hack]
  dsimp only
  split
  · exact .inl rfl
  split
  · exact phase_acceptInOrder _ seg payload
  · split <;> exact .inl rfl

variable {c}

section
variable (h : c.Coherent) (seg : TcpSegment) (payload : List UInt8)
include h

theorem Coherent.onSynSent (hs : c.state = .synSent) : (c.onSynSent seg payload).2.Coherent := by
  unfold TcpConnection.onSynSent takePayload takeData
  split
  · exact h
  · split
    · exact h
    · exact ⟨h.failed, rfl, by rw [h.ours, hs]; rfl, by rw [h.peers, hs]; rfl⟩

theorem Coherent.onEstablished (hs : c.state = .established) :
    (c.onEstablished seg payload).2.Coherent := by
  rcases c.phase_onEstablished seg payload with hph | hph
  · exact h.congr hph
  · simp only [phase, Prod.mk.injEq] at hph
    obtain ⟨hfl, hst, hor, hpr⟩ := hph
    exact ⟨by rw [hfl, h.failed], by rw [hst]; rfl,
      by rw [hor, hst, h.ours, hs]; rfl, by rw [hpr, hst]; rfl⟩

theorem Coherent.onFinWait1 (hs : c.state = .finWait1) : (c.onFinWait1 seg payload).2.Coherent := by
  have hfl : (c.onEstablished seg payload).2.failed = none ∧
      (c.onEstablished seg payload).2.ourFinSent := by
    rcases c.phase_onEstablished seg payload with hph | hph <;>
      simp only [phase, Prod.mk.injEq] at hph <;>
      exact ⟨by rw [hph.1, h.failed], by rw [hph.2.2.1, h.ours, hs]; rfl⟩
  obtain ⟨hfd, hsn⟩ := hfl
  -- the next state is read off the two FINs
  refine ⟨hfd, ?_, ?_, ?_⟩ <;> dsimp only [TcpConnection.onFinWait1, afterFinWait1] <;> split <;>
    simp_all [TcpState.isTerminal, TcpState.finSent, TcpState.finSeen]

theorem Coherent.onFinWait2 (hs : c.state = .finWait2) : (c.onFinWait2 seg payload).2.Coherent := by
  obtain ⟨_, _, _, _, hack⟩ := c.takeAck_eq seg
  unfold TcpConnection.onFinWait2 takePayload takeData
  rw [hack]
  dsimp only
  split
  · exact h.congr rfl
  split
  · exact h.congr rfl
  · split
    · exact ⟨h.failed, rfl, by rw [h.ours, hs]; rfl, rfl⟩
    · exact h.congr rfl

theorem Coherent.onClosing (hs : c.state = .closing) : (c.onClosing seg payload).2.Coherent := by
  obtain ⟨_, _, _, _, hack⟩ := c.takeAck_eq seg
  unfold TcpConnection.onClosing
  rw [hack]
  dsimp only
  split <;> split
  case isTrue.isTrue | isTrue.isFalse =>
    exact ⟨h.failed, rfl, by rw [h.ours, hs]; rfl, by rw [h.peers, hs]; rfl⟩
  case isFalse.isTrue | isFalse.isFalse => exact h.congr rfl

theorem Coherent.onCloseWait : (c.onCloseWait seg payload).2.Coherent := by
  obtain ⟨_, _, _, _, hack⟩ := c.takeAck_eq seg
  unfold TcpConnection.onCloseWait takePayload takeData
  rw [hack]
  dsimp only
  split
  · exact h.congr rfl
  · split <;> exact h.congr rfl

/-- A segment ends a connection, or leaves it coherent. -/
theorem Coherent.onSegment : (∃ e, (c.onSegment seg payload).1 = .failed e ∧
      (c.onSegment seg payload).2.freeUnlessBuffered = none) ∨
    (c.onSegment seg payload).1 = .closed ∨ (c.onSegment seg payload).2.Coherent := by
  rcases c.onSegment_cases h.failed seg payload with
    ⟨-, heq, -, hfr⟩ | ⟨-, heq⟩ | ⟨-, heq⟩
  · exact .inl ⟨_, heq, hfr⟩
  · rw [heq]
    exact .inr (.inr h)
  refine .inr ?_
  rw [heq]
  unfold dispatch
  cases hs : c.state with
  | synSent => exact .inr (h.onSynSent seg payload hs)
  | established => exact .inr (h.onEstablished seg payload hs)
  | finWait1 => exact .inr (h.onFinWait1 seg payload hs)
  | finWait2 => exact .inr (h.onFinWait2 seg payload hs)
  | closing => exact .inr (h.onClosing seg payload hs)
  | closeWait => exact .inr (h.onCloseWait seg payload)
  | timeWait =>
    refine .inr ?_
    dsimp only [onTimeWait]
    split <;> exact h
  | lastAck =>
    dsimp only [onLastAck]
    split
    · exact .inl rfl
    · refine .inr ?_
      split <;> exact h
  | closed | reset => exact .inr h

end

/-! ## Steps -/

/-- Perhaps a data segment is sent. -/
def Sends (now : Nat) (c c' : TcpConnection) : Prop := Quiet c c' ∨ Quiet (c.takeSegment now).2 c'

/-- What a step can do to a connection that it leaves in its slot. -/
inductive Step (c : TcpConnection) : ConnOp → TcpConnection → Prop where
  | quiet {op : ConnOp} {c' : TcpConnection} (hop : ∀ now data link, op ≠ .send now data link)
      (hquiet : Quiet c c') : Step c op c'
  | send {now : Nat} {data : List UInt8} {link : Link} {c' : TcpConnection}
      (hsends : Sends now (c.queueSend data).2 c') : Step c (.send now data link) c'
  | receive {cap : Nat} : Step c (.receive cap) (c.receive cap).2
  | close {now : Nat} {link : Link} {next : TcpState} {c' : TcpConnection}
      (hstate : c.state = .established ∧ next = .finWait1 ∨ c.state = .closeWait ∧ next = .lastAck)
      (hquiet : Quiet (({ c with state := next, ourFinSent := true } : TcpConnection).recordFin now)
        c') : Step c (.close now link) c'
  | deliver {now : Nat} {seg : TcpSegment} {payload : List UInt8} {link : Link} {c' : TcpConnection}
      (hcoherent : (c.onSegment seg payload).2.Coherent)
      (hsends : Sends now (c.onSegment seg payload).2 c') : Step c (.deliver now seg payload link) c'
  | syn {now : Nat} {link : Link} {nxt : UInt32} {c' : TcpConnection} (hstate : c.state = .synSent)
      (hnxt : nxt = c.sndNxt ∨ nxt = c.iss + 1)
      (hquiet : Quiet { c with retransmit := ⟨true, c.iss, true, false, []⟩, sndNxt := nxt } c') :
      Step c (.pollOutput now link) c'
  | output {now : Nat} {link : Link} {c' : TcpConnection} (hsends : Sends now c c') :
      Step c (.pollOutput now link) c'

/-- A connection that a segment leaves in its slot has not failed, and may have sent data. -/
theorem Coherent.deliver_sends (h : c.Coherent)
    (heq : (c.deliver now seg payload link).2.1 = some c') :
    (c.onSegment seg payload).2.Coherent ∧ Sends now (c.onSegment seg payload).2 c' := by
  rcases h.onSegment seg payload with ⟨e, hac, hfr⟩ | hac | hch <;> rcases deliver_cases heq with
      ⟨hac', hqt⟩ | ⟨hac', hqt⟩ | ⟨e', hac', hkp⟩ | ⟨hac', rfl⟩
  all_goals try (rw [hac] at hac'; cases hac')
  · exact absurd (hfr.symm.trans hkp) (Option.some_ne_none c').symm
  · exact ⟨hch, .inl hqt⟩
  · exact ⟨hch, .inr hqt⟩
  · unfold freeUnlessBuffered at hkp
    split at hkp
    · cases hkp
      exact ⟨hch, .inl (.refl _)⟩
    · cases hkp
  · exact ⟨hch, .inl (.refl _)⟩

theorem Coherent.step (h : c.Coherent) (heq : (c.apply op).2 = some c') : Step c op c' := by
  cases op with
  | send now data link =>
    obtain rfl : (c.send now data link).2.1 = c' := Option.some.inj heq
    rcases c.send_cases now data link with hqu | hqt | htr
    · exact .send (.inl (hqu ▸ .refl _))
    · exact .send (.inr hqt)
    · rw [h.live] at htr
      cases htr
  | receive cap =>
    obtain rfl : (c.receive cap).2 = c' := Option.some.inj heq
    exact .receive
  | close now link =>
    obtain rfl : (c.close now link).2.1 = c' := Option.some.inj heq
    rcases c.close_cases now link with ⟨next, hst, hqt⟩ | ⟨-, hsm⟩
    · exact .close hst hqt
    · rw [hsm]
      exact .quiet nofun (.refl c)
  | free => cases heq
  | deliver now seg payload link =>
    obtain ⟨hch, hsn⟩ := h.deliver_sends heq
    exact .deliver hch hsn
  | pollTimers now link => exact .quiet nofun (pollTimers_cases h.failed heq)
  | pollOutput now link =>
    obtain rfl : (c.pollOutput now link).1 = c' := Option.some.inj heq
    rcases c.pollOutput_cases now link with ⟨hst, hqt⟩ | hqt | hsm
    · obtain ⟨nxt, hnxt, hsyn⟩ := c.sendSyn_cases now link
      exact .syn hst hnxt (hsyn.trans hqt)
    · exact .output (.inr hqt)
    · rw [hsm]
      exact .quiet nofun (.refl c)

theorem Coherent.sends (h : c.Coherent) (hsn : Sends now c c') : c'.Coherent := by
  rcases hsn with hqt | hqt
  · exact hqt.coherent h
  · exact hqt.coherent (h.congr (c.phase_takeSegment now))

theorem Step.coherent (h : c.Coherent) (hst : Step c op c') : c'.Coherent := by
  cases hst with
  | quiet _ hqt => exact hqt.coherent h
  | send hsn => exact (h.congr (c.phase_queueSend _)).sends hsn
  | receive =>
    rw [receive_eq]
    exact h.congr rfl
  | close hsa hqt =>
    refine hqt.coherent ⟨h.failed, ?_, ?_, h.peers.trans ?_⟩ <;>
      rcases hsa with ⟨hs, rfl⟩ | ⟨hs, rfl⟩ <;> first | rfl | (rw [hs]; rfl)
  | deliver hch hsn => exact hch.sends hsn
  | syn hsa hnxt hqt => exact hqt.coherent ⟨h.failed, h.live, h.ours, h.peers⟩
  | output hsn => exact h.sends hsn

end TcpConnection

theorem Opening.coherent (o : Opening) : o.conn.Coherent := by
  obtain ⟨nxt, -, hqt⟩ := TcpConnection.connect_cases
    (.new o.owner o.localAddr o.remote o.iss) o.now o.link
  exact hqt.coherent ⟨rfl, rfl, rfl, rfl⟩

/-- Invariants of a connection, for lives whose events satisfy `R`. -/
theorem Opening.life_invariant (o : Opening) {R : ConnEvent → Prop}
    {P : List ConnEvent → TcpConnection → Prop} (start : P [] o.conn)
    (next : ∀ log c op c', c.Coherent → R (.of TcpConnection.step (some c) op) → P log c →
      (c.apply op).2 = some c' → TcpConnection.Step c op c' →
      P (log ++ [.of TcpConnection.step (some c) op]) c')
    (ops : List ConnOp) (hR : ∀ e ∈ trace TcpConnection.step (some o.conn) ops, R e)
    (c : TcpConnection) (hc : o.after ops = some c) :
    c.Coherent ∧ P (trace TcpConnection.step (some o.conn) ops) c := by
  have key := run_induction TcpConnection.step
    (P := fun log slot => (∀ e ∈ log, R e) → ∀ c, slot = some c → c.Coherent ∧ P log c)
    (fun _ c hc => Option.some.inj hc ▸ ⟨o.coherent, start⟩) (by
      intro log slot op ih hR c' hc'
      cases slot with
      | none => cases hc'
      | some c =>
        obtain ⟨hch, hP⟩ := ih (fun e he => hR e (List.mem_append_left _ he)) c rfl
        have hst := hch.step hc'
        exact ⟨hst.coherent hch, next log c op c' hch
          (hR _ (List.mem_append_right _ List.mem_cons_self)) hP hc' hst⟩) ops
  exact key hR c hc

theorem Opening.coherent_after (o : Opening) (ops : List ConnOp) (hc : o.after ops = some c) :
    c.Coherent :=
  (o.life_invariant (R := fun _ => True) (P := fun _ _ => True) trivial
    (fun _ _ _ _ _ _ _ _ _ => trivial) ops (fun _ _ => trivial) c hc).1

end CleanSlate.Network.Tcp
