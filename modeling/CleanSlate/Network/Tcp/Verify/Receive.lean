import CleanSlate.Network.Tcp.Verify.Reliable

/-!
# Received bytes are the stream of the peer

The stream of the peer starts at `irs + 1`: the bytes of a segment have the sequence numbers from its
own on, behind its SYN if it has one, and its FIN comes after them. What a connection has handed to
the application and what it still buffers is that stream from the start on (`Received`): every byte
was carried by a segment with the sequence number of its place, and `rcv_nxt` counts them.

Four kinds of segments break this (`Irregular`), all of them in sequence: a FIN behind more data than
there is room for, which is consumed while a part of the data is dropped; a SYN after the handshake,
which is counted but not skipped; and data behind the FIN in CLOSE-WAIT, which is accepted.
-/

namespace CleanSlate.Network.Tcp

open Lib List TcpConnection

variable {seg : TcpSegment} {payload : List UInt8} {op : ConnOp}

/-! ## What a segment carries -/

/-- The sequence number of the first byte of a segment. -/
def TcpSegment.dataStart (seg : TcpSegment) : UInt32 :=
  if seg.flags.contains .syn then seg.seq + 1 else seg.seq

/-- The segment carries `byte` with this sequence number. -/
def Carries (seg : TcpSegment × List UInt8) (number : UInt32) (byte : UInt8) : Prop :=
  ∃ k, seg.2[k]? = some byte ∧ number = seg.1.dataStart + UInt32.ofNat k

/-- The segment carries a FIN with this sequence number. -/
def FinAt (seg : TcpSegment × List UInt8) (number : UInt32) : Prop :=
  seg.1.flags.contains .fin ∧ number = seg.1.dataStart + UInt32.ofNat seg.2.length
deriving Decidable

/-! ## The receiving side -/

structure RecvSide where
  /-- the handshake is complete -/
  synced : Bool
  irs : UInt32
  rcvNxt : UInt32
  buffered : List UInt8
  finSeen : Bool
  deriving DecidableEq

namespace RecvSide

/-- What a segment does to the receiving side. -/
inductive Intake (v : RecvSide) (seg : TcpSegment) (payload : List UInt8) : RecvSide → Prop where
  | ignored : Intake v seg payload v
  | opened {n : Nat} (hsynced : v.synced = false) (hsyn : seg.flags.contains .syn)
      (hn : n ≤ payload.length) : Intake v seg payload { v with
        synced := true
        irs := seg.seq
        rcvNxt := seg.seq + 1 + UInt32.ofNat n
        buffered := v.buffered ++ payload.take n }
  | data {n : Nat} (hsynced : v.synced) (hseq : seg.seq = v.rcvNxt)
      (hsyn : seg.flags.contains .syn = false) (hseen : v.finSeen = false)
      (hn : n ≤ payload.length) : Intake v seg payload { v with
        rcvNxt := v.rcvNxt + UInt32.ofNat n
        buffered := v.buffered ++ payload.take n }
  | fin (hsynced : v.synced) (hseq : seg.seq = v.rcvNxt)
      (hsyn : seg.flags.contains .syn = false) (hfin : seg.flags.contains .fin)
      (hseen : v.finSeen = false) : Intake v seg payload { v with
        rcvNxt := v.rcvNxt + UInt32.ofNat payload.length + 1
        buffered := v.buffered ++ payload
        finSeen := true }

/-- `delivered` was handed out of the stream that the segments in `inbound` carry. -/
structure Received (inbound : List (TcpSegment × List UInt8)) (delivered : List UInt8)
    (v : RecvSide) : Prop where
  unsynced : v.synced = false → delivered = [] ∧ v.buffered = [] ∧ v.finSeen = false
  rcvNxt : v.synced → v.rcvNxt = v.irs + 1 +
    UInt32.ofNat ((delivered ++ v.buffered).length + if v.finSeen then 1 else 0)
  bytes : ∀ k byte, (delivered ++ v.buffered)[k]? = some byte →
    ∃ seg ∈ inbound, Carries seg (v.irs + 1 + UInt32.ofNat k) byte
  fin : v.finSeen →
    ∃ seg ∈ inbound, FinAt seg (v.irs + 1 + UInt32.ofNat (delivered ++ v.buffered).length)

variable {inbound : List (TcpSegment × List UInt8)} {delivered : List UInt8} {v v' : RecvSide}

theorem bytes_append {irs : UInt32} {stream : List UInt8}
    {n : Nat} (h : ∀ k byte, stream[k]? = some byte →
      ∃ seg ∈ inbound, Carries seg (irs + 1 + UInt32.ofNat k) byte)
    (hst : seg.dataStart = irs + 1 + UInt32.ofNat stream.length) :
    ∀ k byte, (stream ++ payload.take n)[k]? = some byte →
      ∃ s ∈ inbound ++ [(seg, payload)], Carries s (irs + 1 + UInt32.ofNat k) byte := by
  intro k byte hk
  by_cases hlt : k < stream.length
  · rw [getElem?_append_left hlt] at hk
    obtain ⟨s, hmem, hcr⟩ := h k byte hk
    exact ⟨s, mem_append_left _ hmem, hcr⟩
  · have hle : stream.length ≤ k := Nat.not_lt.1 hlt
    rw [getElem?_append_right hle] at hk
    refine ⟨(seg, payload), mem_concat_self, k - stream.length, ?_, ?_⟩
    · rw [getElem?_take] at hk
      split at hk
      · exact hk
      · cases hk
    · rw [hst, UInt32.add_assoc (irs + 1), ← UInt32.ofNat_add, Nat.add_sub_of_le hle]

section

variable (h : v.Received inbound delivered)
include h

/-- An in-order segment without SYN starts behind the stream. -/
theorem Received.dataStart (hsy : v.synced) (hsn : v.finSeen = false) (hseq : seg.seq = v.rcvNxt)
    (hsyn : seg.flags.contains .syn = false) :
    seg.dataStart = v.irs + 1 + UInt32.ofNat (delivered ++ v.buffered).length := by
  rw [TcpSegment.dataStart, if_neg (by rw [hsyn]; decide), hseq, h.rcvNxt hsy, hsn]
  rfl

theorem Received.intake (hin : v.Intake seg payload v') (hne : v' ≠ v) :
    v'.Received (inbound ++ [(seg, payload)]) delivered := by
  cases hin with
  | ignored => exact absurd rfl hne
  | @opened n hsy hsyn hn =>
    obtain ⟨rfl, hbuf, hfin⟩ := h.unsynced hsy
    have hst : seg.dataStart = seg.seq + 1 + UInt32.ofNat ([] : List UInt8).length := by
      rw [TcpSegment.dataStart, if_pos hsyn]
      exact (UInt32.add_zero _).symm
    refine ⟨fun hfl => (by cases hfl), fun _ => ?_, ?_, fun hsn => ?_⟩
    · simp only [hbuf, hfin, nil_append, length_take, Nat.min_eq_left hn,
        Bool.false_eq_true, if_false, Nat.add_zero]
    · simp only [hbuf, nil_append]
      exact bytes_append (fun k byte hk => (by simp at hk)) hst
    · exact Bool.noConfusion (hfin.symm.trans hsn)
  | @data n hsy hseq hsyn hsn hn =>
    have hst := h.dataStart hsy hsn hseq hsyn
    refine ⟨fun hfl => Bool.noConfusion (hfl.symm.trans hsy), fun _ => ?_, ?_,
      fun htr => Bool.noConfusion (hsn.symm.trans htr)⟩
    · have hnxt := h.rcvNxt hsy
      have hln : (delivered ++ (v.buffered ++ payload.take n)).length =
          (delivered ++ v.buffered).length + n := by
        simp only [length_append, length_take, Nat.min_eq_left hn, Nat.add_assoc]
      rw [hsn, if_neg Bool.false_ne_true, Nat.add_zero] at hnxt
      rw [hnxt, hsn, hln, if_neg Bool.false_ne_true, Nat.add_zero, UInt32.ofNat_add,
        UInt32.add_assoc]
    · rw [← append_assoc]
      exact bytes_append h.bytes hst
  | fin hsy hseq hsyn hfin hsn =>
    have hst := h.dataStart hsy hsn hseq hsyn
    have hln : (delivered ++ (v.buffered ++ payload)).length =
        (delivered ++ v.buffered).length + payload.length := by
      simp only [length_append, Nat.add_assoc]
    refine ⟨fun hfl => Bool.noConfusion (hfl.symm.trans hsy), fun _ => ?_, ?_,
      fun _ => ⟨(seg, payload), mem_concat_self, hfin, ?_⟩⟩
    · have hnxt := h.rcvNxt hsy
      rw [hsn] at hnxt
      rw [hnxt, hln, if_pos rfl, UInt32.ofNat_add _ 1, UInt32.ofNat_add _ payload.length,
        ← UInt32.add_assoc, ← UInt32.add_assoc]
      rfl
    · intro k byte hk
      rw [← append_assoc, ← take_length (l := payload)] at hk
      exact bytes_append h.bytes hst k byte hk
    · rw [hst, hln, UInt32.ofNat_add, ← UInt32.add_assoc]

theorem Received.pop {out rest : List UInt8} (hbuf : v.buffered = out ++ rest) :
    ({ v with buffered := rest } : RecvSide).Received inbound (delivered ++ out) := by
  have hsm : delivered ++ out ++ rest = delivered ++ v.buffered := by
    rw [hbuf, append_assoc]
  refine ⟨fun hsy => ?_, fun hsy => ?_, ?_, fun hsn => ?_⟩
  · obtain ⟨hdl, hem, hsn⟩ := h.unsynced hsy
    obtain ⟨hout, hrs⟩ := append_eq_nil_iff.1 (hbuf.symm.trans hem)
    exact ⟨append_eq_nil_iff.2 ⟨hdl, hout⟩, hrs, hsn⟩
  · rw [hsm]
    exact h.rcvNxt hsy
  · rw [hsm]
    exact h.bytes
  · rw [hsm]
    exact h.fin hsn

end

end RecvSide

/-! ## The intake of a connection -/

namespace TcpConnection

def recvSide (c : TcpConnection) : RecvSide where
  synced := c.state != .synSent
  irs := c.irs
  rcvNxt := c.rcvNxt
  buffered := c.recvBuf.contents
  finSeen := c.peerFinSeen

/-- Segments in sequence that the connection takes although its stream does not go on with them. -/
def IrregularSegment (c : TcpConnection) (seg : TcpSegment) (payload : List UInt8) : Prop :=
  seg.flags.contains .rst = false ∧ seg.seq = c.rcvNxt ∧ match c.state with
    | .established | .finWait1 => seg.flags.contains .syn ∨
        (seg.flags.contains .fin ∧ c.recvBuf.freeSpace < payload.length)
    | .finWait2 => seg.flags.contains .syn ∧
        if payload = [] then seg.flags.contains .fin = true else 0 < c.recvBuf.freeSpace
    | .closeWait => payload ≠ [] ∧ 0 < c.recvBuf.freeSpace
    | _ => False

variable {c c' : TcpConnection}

theorem Quiet.recvSide (h : Quiet c c') : c'.recvSide = c.recvSide := by
  obtain ⟨_, _, _, _, _, rfl⟩ := h
  rfl

theorem takeAck_recvSide (seg : TcpSegment) : (c.takeAck seg).recvSide = c.recvSide := by
  obtain ⟨_, _, _, _, hack⟩ := c.takeAck_eq seg
  rw [hack]
  rfl

theorem takeData_recvSide {data : List UInt8} (h : data.length ≤ c.recvBuf.freeSpace) :
    (c.takeData data).recvSide = { c.recvSide with
      rcvNxt := c.rcvNxt + UInt32.ofNat data.length
      buffered := c.recvBuf.contents ++ data } := by
  have hps := c.recvBuf.contents_push data
  have hall : (c.recvBuf.push data).1 = data.length := Nat.min_eq_left h
  rw [hall, take_length] at hps
  simp only [takeData, recvSide, hps]

theorem takePayload_recvSide (payload : List UInt8) :
    (c.takePayload payload).recvSide = { c.recvSide with
      rcvNxt := c.rcvNxt + UInt32.ofNat (min payload.length c.recvBuf.freeSpace)
      buffered := c.recvBuf.contents ++
        payload.take (min payload.length c.recvBuf.freeSpace) } := by
  have hln : (payload.take (min payload.length c.recvBuf.freeSpace)).length =
      min payload.length c.recvBuf.freeSpace := by
    rw [length_take]
    omega
  rw [takePayload, takeData_recvSide (by rw [hln]; exact Nat.min_le_right _ _), hln]

theorem takePayload_none (h : min payload.length c.recvBuf.freeSpace = 0) :
    (c.takePayload payload).recvSide = c.recvSide := by
  rw [takePayload_recvSide, h, take_zero, append_nil]
  exact congrArg (fun n => ({ c.recvSide with rcvNxt := n } : RecvSide)) (UInt32.add_zero c.rcvNxt)

theorem acceptInOrder_recvSide (hsyn : seg.flags.contains .syn = false) (payload : List UInt8) :
    (c.acceptInOrder seg payload).recvSide = if seg.flags.contains .fin then
        { (c.takePayload payload).recvSide with
          synced := true
          rcvNxt := (c.takePayload payload).rcvNxt + 1
          finSeen := true }
      else (c.takePayload payload).recvSide := by
  have htk : min (min (payload.length + 0) c.recvBuf.freeSpace) payload.length =
      min payload.length c.recvBuf.freeSpace := by omega
  unfold acceptInOrder
  simp only [hsyn, Bool.false_eq_true, if_false, htk]
  split
  · rfl
  · rfl

section
variable {seg : TcpSegment} {payload : List UInt8}

theorem intake_onSynSent (hs : c.state = .synSent) :
    c.recvSide.Intake seg payload (c.onSynSent seg payload).2.recvSide := by
  have hsy : c.recvSide.synced = false := by simp [recvSide, hs]
  unfold onSynSent
  split
  · exact .ignored
  next hfl =>
  split
  · exact .ignored
  · simp only [Bool.or_eq_true, Bool.not_eq_true', not_or, Bool.not_eq_false] at hfl
    rw [takePayload_recvSide]
    exact .opened hsy hfl.1 (Nat.min_le_left payload.length c.recvBuf.freeSpace)

section

variable (hsynced : c.state ≠ .synSent) (hseq : seg.seq = c.rcvNxt)
  (hsyn : seg.flags.contains .syn = false) (hseen : c.peerFinSeen = false)
include hsynced hseq hsyn hseen

/-- What is taken of the payload of a segment in sequence. -/
theorem intake_takePayload : c.recvSide.Intake seg payload (c.takePayload payload).recvSide := by
  rw [takePayload_recvSide]
  exact .data (bne_iff_ne.2 hsynced) hseq hsyn hseen (Nat.min_le_left _ _)

theorem intake_acceptInOrder
    (hft : seg.flags.contains .fin → payload.length ≤ c.recvBuf.freeSpace) :
    c.recvSide.Intake seg payload (c.acceptInOrder seg payload).recvSide := by
  rw [acceptInOrder_recvSide hsyn]
  split
  · next hfin =>
    have hall : min payload.length c.recvBuf.freeSpace = payload.length :=
      Nat.min_eq_left (hft hfin)
    have hnxt : (c.takePayload payload).rcvNxt = c.rcvNxt + UInt32.ofNat payload.length := by
      have hsd := congrArg RecvSide.rcvNxt (c.takePayload_recvSide payload)
      rwa [hall] at hsd
    have htr : c.recvSide.synced := bne_iff_ne.2 hsynced
    have hfn := @RecvSide.Intake.fin c.recvSide seg payload htr hseq hsyn hfin hseen
    rw [htr] at hfn
    rw [takePayload_recvSide, hall, take_length, hnxt]
    exact hfn
  · exact intake_takePayload hsynced hseq hsyn hseen

end

theorem seq_of_acceptable (h : c.isUnacceptable seg payload = false)
    (hoc : occupiesSequenceSpace seg payload) : seg.seq = c.rcvNxt := by
  unfold isUnacceptable at h
  rw [hoc, Bool.true_and, bne_eq_false_iff_eq] at h
  exact h

theorem occupies_of_payload (h : payload ≠ []) : occupiesSequenceSpace seg payload := by
  cases payload with
  | nil => exact absurd rfl h
  | cons => rfl

theorem intake_onEstablished (hsynced : c.state ≠ .synSent) (hseen : c.peerFinSeen = false)
    (hrg : seg.seq = c.rcvNxt → seg.flags.contains .syn = false ∧
      (seg.flags.contains .fin → payload.length ≤ c.recvBuf.freeSpace)) :
    c.recvSide.Intake seg payload (c.onEstablished seg payload).2.recvSide := by
  obtain ⟨una, unacked, rto, retries, hack⟩ := c.takeAck_eq seg
  unfold onEstablished
  rw [hack]
  dsimp only
  split
  · exact .ignored
  next hac =>
  split
  · next hoc =>
    have hseq := seq_of_acceptable (Bool.not_eq_true _ ▸ hac) hoc
    obtain ⟨hsyn, hft⟩ := hrg hseq
    exact @intake_acceptInOrder { c with
      sndUna := una, retransmit := unacked, rtoDeadline := rto, rtoRetries := retries
      peerWindow := seg.window } seg payload hsynced hseq hsyn hseen hft
  · split <;> exact .ignored

theorem recvSide_setState {state : TcpState} (h : c.state ≠ .synSent) (h' : state ≠ .synSent) :
    ({ c with state } : TcpConnection).recvSide = c.recvSide := by
  simp only [recvSide, bne_iff_ne.2 h, bne_iff_ne.2 h']

theorem intake_onFinWait2 (hs : c.state = .finWait2) (hseen : c.peerFinSeen = false)
    (hrg : seg.seq = c.rcvNxt → seg.flags.contains .syn →
      ¬if payload = [] then seg.flags.contains .fin = true else 0 < c.recvBuf.freeSpace) :
    c.recvSide.Intake seg payload (c.onFinWait2 seg payload).2.recvSide := by
  have hst : c.state ≠ .synSent := by
    rw [hs]
    decide
  obtain ⟨una, unacked, rto, retries, hack⟩ := c.takeAck_eq seg
  unfold onFinWait2
  rw [hack]
  dsimp only
  split
  · exact .ignored
  next hac =>
  have hseq := seq_of_acceptable (Bool.not_eq_true _ ▸ hac)
  split
  · next hdt =>
    have hne : payload ≠ [] := fun hnil => by rw [hnil] at hdt; cases hdt
    have hseq := hseq (occupies_of_payload hne)
    cases hsyn : seg.flags.contains .syn with
    | false =>
      exact @intake_takePayload { c with
        sndUna := una, retransmit := unacked, rtoDeadline := rto, rtoRetries := retries } seg payload
        hst hseq hsyn hseen
    | true =>
      -- a SYN is taken for data only if there is room
      have hrm := hrg hseq hsyn
      rw [if_neg hne] at hrm
      rw [takePayload_none (by dsimp only; omega)]
      exact .ignored
  · next hdt =>
    have hnil : payload = [] := by simpa using hdt
    split
    · next hfin =>
      have hseq := hseq (by rw [occupiesSequenceSpace, hfin, Bool.or_true])
      have hsyn : seg.flags.contains .syn = false := by
        by_contra hsyn
        refine hrg hseq (Bool.not_eq_false _ ▸ hsyn) ?_
        rw [if_pos hnil]
        exact hfin
      have hsynced : c.recvSide.synced := bne_iff_ne.2 hst
      have hfn := @RecvSide.Intake.fin c.recvSide seg payload hsynced hseq hsyn hfin hseen
      rw [hsynced, hnil] at hfn
      convert hfn using 1
      simp [recvSide]
    · exact .ignored

theorem intake_onCloseWait (hrg : seg.seq = c.rcvNxt → payload ≠ [] → ¬0 < c.recvBuf.freeSpace) :
    c.recvSide.Intake seg payload (c.onCloseWait seg payload).2.recvSide := by
  obtain ⟨una, unacked, rto, retries, hack⟩ := c.takeAck_eq seg
  unfold onCloseWait
  rw [hack]
  dsimp only
  split
  · exact .ignored
  next hac =>
  split
  · next hdt =>
    have hne : payload ≠ [] := fun hnil => by rw [hnil] at hdt; cases hdt
    have hseq := seq_of_acceptable (Bool.not_eq_true _ ▸ hac) (occupies_of_payload hne)
    have hrm := hrg hseq hne
    rw [takePayload_none (by dsimp only; omega)]
    exact .ignored
  · exact .ignored

/-- What a regular segment does to the receiving side. -/
theorem intake_onSegment (h : c.Coherent) (h' : (c.onSegment seg payload).2.Coherent)
    (hrg : ¬c.IrregularSegment seg payload) :
    c.recvSide.Intake seg payload (c.onSegment seg payload).2.recvSide := by
  rcases c.onSegment_cases h.failed seg payload with ⟨-, -, hfl, -⟩ | ⟨-, heq⟩ | ⟨hrst, heq⟩
  · exact absurd (h'.failed.symm.trans hfl) (Option.some_ne_none _).symm
  · rw [heq]
    exact .ignored
  have hop : c.state = .established ∨ c.state = .finWait1 → c.state ≠ .synSent ∧
      c.peerFinSeen = false ∧ (seg.seq = c.rcvNxt → seg.flags.contains .syn = false ∧
        (seg.flags.contains .fin → payload.length ≤ c.recvBuf.freeSpace)) := by
    intro hs
    refine ⟨?_, h.peers.trans ?_, fun hseq => ?_⟩
    · rcases hs with hs | hs <;> rw [hs] <;> decide
    · rcases hs with hs | hs <;> rw [hs] <;> rfl
    · have hnot : ¬(seg.flags.contains .syn ∨
          (seg.flags.contains .fin ∧ c.recvBuf.freeSpace < payload.length)) := by
        intro hbad
        refine hrg ⟨hrst, hseq, ?_⟩
        rcases hs with hs | hs <;> rw [hs] <;> exact hbad
      obtain ⟨hsyn, hfin⟩ := not_or.1 hnot
      exact ⟨Bool.not_eq_true _ ▸ hsyn, fun hfg => Nat.not_lt.1 fun hlt => hfin ⟨hfg, hlt⟩⟩
  rw [heq] at h' ⊢
  unfold dispatch at h' ⊢
  cases hs : c.state with
  | synSent => exact intake_onSynSent hs
  | established =>
    obtain ⟨hsynced, hseen, hrg⟩ := hop (.inl hs)
    exact intake_onEstablished hsynced hseen hrg
  | finWait1 =>
    obtain ⟨hsynced, hseen, hrg⟩ := hop (.inr hs)
    have hin := intake_onEstablished hsynced hseen hrg
    have hst := (handles_onEstablished hsynced seg payload).2.1
    have hsm : (c.onFinWait1 seg payload).2.recvSide = (c.onEstablished seg payload).2.recvSide :=
      recvSide_setState hst (by dsimp only [afterFinWait1]; split <;> decide)
    rw [← hsm] at hin
    exact hin
  | finWait2 =>
    refine intake_onFinWait2 hs (h.peers.trans (by rw [hs]; rfl)) fun hseq hsyn hbad =>
      hrg ⟨hrst, hseq, ?_⟩
    rw [hs]
    exact ⟨hsyn, hbad⟩
  | closing =>
    have hst : (c.takeAck seg).state ≠ .synSent := by
      rw [state_takeAck, hs]
      decide
    have hsm : (c.onClosing seg payload).2.recvSide = c.recvSide := by
      unfold onClosing
      dsimp only
      split <;> split
      · exact (recvSide_setState hst (by decide)).trans (takeAck_recvSide seg)
      · exact (recvSide_setState hst (by decide)).trans (takeAck_recvSide seg)
      · exact takeAck_recvSide seg
      · exact takeAck_recvSide seg
    rw [hsm]
    exact .ignored
  | timeWait =>
    dsimp only [onTimeWait]
    split <;> exact .ignored
  | lastAck =>
    simp only [hs] at h'
    dsimp only [onLastAck] at h' ⊢
    split
    · next hac =>
      rw [if_pos hac] at h'
      cases h'.live
    · split <;> exact .ignored
  | closeWait =>
    refine intake_onCloseWait fun hseq hne hrm => hrg ⟨hrst, hseq, ?_⟩
    rw [hs]
    exact ⟨hne, hrm⟩
  | closed | reset => exact .ignored

end

/-! ## Lives of a connection -/

theorem Sends.recvSide {now : Nat} (h : Sends now c c') : c'.recvSide = c.recvSide := by
  rcases h with hqt | hqt
  · exact hqt.recvSide
  · obtain ⟨_, _, _, _, hsn⟩ := c.takeSegment_eq now
    rw [hqt.recvSide, hsn]
    rfl

theorem Step.recvSide (hst : Step c op c') (hrc : ∀ cap, op ≠ .receive cap)
    (hdl : ∀ now seg payload link, op ≠ .deliver now seg payload link) :
    c'.recvSide = c.recvSide := by
  cases hst with
  | quiet _ hqt | syn _ _ hqt => exact hqt.recvSide
  | @send now data link _ hsn =>
    obtain ⟨_, hqu⟩ := c.queueSend_eq data
    rw [hsn.recvSide, hqu]
    rfl
  | receive => exact absurd rfl (hrc _)
  | @close now link next _ hsa hqt =>
    have hs : (c.state != .synSent) := by
      rcases hsa with ⟨hs, -⟩ | ⟨hs, -⟩ <;> rw [hs] <;> rfl
    have hnx : (next != .synSent) := by
      rcases hsa with ⟨-, rfl⟩ | ⟨-, rfl⟩ <;> rfl
    rw [hqt.recvSide]
    simp only [recvSide, recordFin, recordUnacked, hs, hnx]
  | deliver => exact absurd rfl (hdl _ _ _ _)
  | output hsn => exact hsn.recvSide

theorem receive_recvSide (c : TcpConnection) (cap : Nat) :
    ∃ out, c.recvBuf.contents = out ++ (c.receive cap).2.recvBuf.contents ∧
      (c.receive cap).2.recvSide =
        { c.recvSide with buffered := (c.receive cap).2.recvBuf.contents } ∧
      ((c.receive cap).1 = .ok out ∨ out = [] ∧ ∃ e, (c.receive cap).1 = .error e) := by
  have hpop := c.recvBuf.contents_pop cap
  unfold receive
  dsimp only
  split
  · exact ⟨_, hpop, rfl, .inl rfl⟩
  next hem =>
  have hnil : (c.recvBuf.pop cap).1 = [] := eq_nil_of_length_eq_zero (by omega)
  rw [hnil] at hpop
  split
  · exact ⟨[], hpop, rfl, .inr ⟨rfl, _, rfl⟩⟩
  · split
    · exact ⟨[], hpop, rfl, .inr ⟨rfl, _, rfl⟩⟩
    · exact ⟨[], hpop, rfl, .inl (by rw [hnil])⟩

/-- The segments of a life that the receiving side took something of. -/
def takenIn (log : List ConnEvent) : List (TcpSegment × List UInt8) :=
  log.flatMap fun e => match e.input with
    | .deliver _ seg payload _ =>
      if e.post.map recvSide = e.pre.map recvSide then [] else [(seg, payload)]
    | _ => []

/-- The bytes that `receive` handed to the application in a life. -/
def deliveredIn (log : List ConnEvent) : List UInt8 := log.flatMap fun e => match e.output with
    | .received (.ok bytes) => bytes
    | _ => []

/-- A step that takes an irregular segment. -/
def Irregular (e : ConnEvent) : Prop :=
  ∃ c now seg payload link, e.pre = some c ∧ e.input = .deliver now seg payload link ∧
    c.IrregularSegment seg payload

theorem Received.step {log : List ConnEvent} (h : c.Coherent)
    (hrg : ¬Irregular (.of step (some c) op))
    (hrc : c.recvSide.Received (takenIn log) (deliveredIn log))
    (heq : (c.apply op).2 = some c') (hst : Step c op c') :
    c'.recvSide.Received (takenIn (log ++ [.of step (some c) op]))
      (deliveredIn (log ++ [.of step (some c) op])) := by
  unfold takenIn deliveredIn at hrc ⊢
  cases op with
  | receive cap =>
    obtain rfl : (c.receive cap).2 = c' := Option.some.inj heq
    obtain ⟨out, hbuf, hsd, hrs⟩ := c.receive_recvSide cap
    have hpop := hrc.pop hbuf
    rw [← hsd] at hpop
    rcases hrs with hok | ⟨rfl, e, her⟩
    · simpa [Event.of, step, apply, hok] using hpop
    · simpa [Event.of, step, apply, her] using hpop
  | deliver now seg payload link =>
    obtain ⟨hch, hsn⟩ := h.deliver_sends heq
    have hin := intake_onSegment h hch fun hbad =>
      hrg ⟨c, now, seg, payload, link, rfl, rfl, hbad⟩
    rw [← hsn.recvSide] at hin
    have hpost : (c.deliver now seg payload link).2.1 = some c' := heq
    by_cases hsm : c'.recvSide = c.recvSide
    · rw [hsm]
      simpa [Event.of, step, apply, hpost, hsm] using hrc
    · simpa [Event.of, step, apply, hpost, hsm] using hrc.intake hin hsm
  | send | close | pollTimers | pollOutput =>
    rw [hst.recvSide (by simp) (by simp)]
    simpa [Event.of, step, apply] using hrc
  | free => cases heq

/-- The end of the stream is reported when the FIN was seen and the buffer is empty. -/
theorem receive_closed {cap : Nat} (h : (c.receive cap).1 = .error .closed) :
    c.peerFinSeen ∧ c.recvBuf.contents = [] := by
  have hpop := c.recvBuf.contents_pop cap
  unfold receive at h
  dsimp only at h
  split at h
  · cases h
  next hln =>
  split at h
  · cases h
  split at h
  · next hcl =>
    obtain ⟨hseen, hem⟩ := Bool.and_eq_true_iff.1 hcl
    refine ⟨hseen, ?_⟩
    have hnn : (c.recvBuf.pop cap).2.contents = [] := by
      have hlen : (c.recvBuf.pop cap).2.ring.len = 0 := eq_of_beq hem
      rw [RingBuf.contents, Ring.toList, hlen]
      rfl
    rw [hpop, eq_nil_of_length_eq_zero (Nat.le_zero.1 (Nat.not_lt.1 hln)), hnn]
    rfl
  · cases h

end TcpConnection

namespace Opening

open TcpConnection

theorem received_conn (o : Opening) : o.conn.recvSide.Received [] [] := by
  obtain ⟨nxt, -, hqt⟩ := connect_cases (.new o.owner o.localAddr o.remote o.iss) o.now o.link
  rw [show o.conn.recvSide = _ from hqt.recvSide]
  exact ⟨fun _ => ⟨rfl, rfl, rfl⟩, fun hsynced => (by cases hsynced),
    fun k byte hk => (by simp [recvSide, new, RingBuf.contents,
      RingBuf.new, Ring.toList] at hk), fun hseen => (by cases hseen)⟩

end Opening

namespace TcpConnection

/-- As long as no segment is irregular, what was handed out and what is buffered is the stream of the
peer from its start, `rcv_nxt` counts it, and the end of the stream is reported only after all bytes
in front of a FIN were handed out. -/
theorem received_in_order (o : Opening) (ops : List ConnOp)
    (hregular : ∀ e ∈ trace step (some o.conn) ops, ¬Irregular e) (c : TcpConnection)
    (hc : o.after ops = some c) :
    let log := trace step (some o.conn) ops
    c.recvSide.Received (takenIn log) (deliveredIn log) ∧
      ∀ cap, (c.receive cap).1 = .error .closed → ∃ seg ∈ takenIn log,
        FinAt seg (c.irs + 1 + UInt32.ofNat (deliveredIn log).length) := by
  intro log
  have hrc : c.recvSide.Received (takenIn log) (deliveredIn log) :=
    (o.life_invariant (P := fun log c => c.recvSide.Received (takenIn log) (deliveredIn log))
      o.received_conn (fun _ _ _ _ h hregular hrc heq hst =>
        Received.step h hregular hrc heq hst) ops hregular c hc).2
  refine ⟨hrc, fun cap hcl => ?_⟩
  obtain ⟨hseen, hem⟩ := receive_closed hcl
  have hfin := hrc.fin hseen
  rwa [show c.recvSide.buffered = [] from hem, List.append_nil] at hfin

/-- One byte arrives and is read. -/
def sampleOneByte : List ConnOp :=
  [sampleSynAck, .deliver 2 (samplePeer .ack 5001 1001) [7] ⟨[], []⟩, .receive 10]

theorem received_in_order_one_byte :
    deliveredIn (trace step (some sampleOpening.conn) sampleOneByte) = [7] ∧
      ∃ c, sampleOpening.after sampleOneByte = some c ∧
        c.recvSide.Received
          (takenIn (trace step (some sampleOpening.conn) sampleOneByte)) [7] := by
  have hdl : deliveredIn (trace step (some sampleOpening.conn) sampleOneByte) = [7] := by
    decide
  have hst : (sampleOpening.after sampleOneByte).isSome := by decide
  obtain ⟨c, hc⟩ := Option.isSome_iff_exists.1 hst
  refine ⟨hdl, c, hc, ?_⟩
  refine (received_in_order sampleOpening sampleOneByte ?_ c hc).1
  rintro e he ⟨c, now, seg, payload, link, hpre, hop, hbad⟩
  simp only [sampleOneByte, trace, mem_cons, not_mem_nil, or_false] at he
  rcases he with rfl | rfl | rfl
  · obtain rfl : sampleOpening.conn = c := Option.some.inj hpre
    exact hbad.2.2
  · obtain rfl := Option.some.inj hpre
    obtain ⟨rfl, rfl, rfl, rfl⟩ := ConnOp.deliver.inj hop
    rcases hbad.2.2 with hsyn | ⟨hfin, -⟩
    · exact absurd hsyn (by decide)
    · exact absurd hfin (by decide)
  · cases hop

/-- A segment in sequence that fills the receive buffer further. -/
def sampleFill (n : Nat) (seq : UInt32) : ConnOp :=
  .deliver 2 (samplePeer .ack seq 1001) (List.replicate n 0) ⟨[], []⟩

/-- The receive buffer is full when the last byte of the peer arrives together with its FIN. -/
def sampleFullBuffer : List ConnOp :=
  [sampleSynAck, sampleFill 1460 5001, sampleFill 1460 6461, sampleFill 1176 7921,
    .deliver 3 (samplePeer (TcpFlags.ack.union .fin) 9097 1001) [9] ⟨[], []⟩]

set_option maxRecDepth 100000 in
/-- The byte is dropped and the FIN consumed: after the 4096 bytes before it were read, the end of the
stream is reported, although no FIN comes right after them. -/
theorem fin_consumed_without_data :
    let ops := sampleFullBuffer ++ [.receive 4096]
    let log := trace step (some sampleOpening.conn) ops
    ∃ c, sampleOpening.after ops = some c ∧ (c.receive 1).1 = .error .closed ∧
      ¬∃ seg ∈ takenIn log, FinAt seg (c.irs + 1 + UInt32.ofNat (deliveredIn log).length) := by
  refine ⟨(sampleOpening.after _).get (by decide +kernel), (Option.some_get _).symm,
    by decide +kernel, by decide +kernel⟩

end TcpConnection

end CleanSlate.Network.Tcp
