import CleanSlate.Network.Tcp.Verify.Send

/-!
# Acknowledgement numbers

Two words at a distance of `2 ^ 31` come before each other in the order of `seq_lt`. So the check of
an acknowledgement accepts exactly the numbers from `snd_una` to `snd_nxt`, and one more when these
two are equal: the number half a circle away (`Halfway`). Without such a segment, a connection never
has more outstanding than one segment and a FIN. In SYN-SENT the number is compared with `iss + 1`,
whether or not the SYN was counted in `snd_nxt`.
-/

namespace CleanSlate.Network.Tcp

open Lib

variable {a una nxt : UInt32} {seg : TcpSegment} {op : ConnOp} {c' : TcpConnection}

/-! ## The order of sequence numbers -/

theorem seqLe_iff {a b : UInt32} : seqLe a b ↔ (b - a).toNat ≤ 2 ^ 31 := by
  have ha := a.toNat_lt
  have hb := b.toNat_lt
  simp only [seqLe, seqLt, Bool.or_eq_true, beq_iff_eq, decide_eq_true_eq, UInt32.le_iff_toNat_le,
    ← UInt32.toNat_inj, UInt32.toNat_sub, UInt32.reduceToNat]
  omega

theorem ackValid_iff :
    ackValid a una nxt ↔ (a - una).toNat ≤ 2 ^ 31 ∧ (nxt - a).toNat ≤ 2 ^ 31 := by
  rw [ackValid, Bool.and_eq_true_iff, seqLe_iff, seqLe_iff]

/-- Nothing is outstanding, and the number is half a circle away. -/
def Halfway (ack una nxt : UInt32) : Prop := nxt = una ∧ ack = una + 0x80000000
deriving Decidable

theorem ackValid_halfway (h : Halfway a una nxt) :
    ackValid a una nxt ∧ (nxt - una).toNat < (a - una).toNat := by
  obtain ⟨rfl, rfl⟩ := h
  have hnxt := nxt.toNat_lt
  rw [ackValid_iff]
  simp only [UInt32.toNat_sub, UInt32.toNat_add, UInt32.reduceToNat]
  omega

theorem interval_of_ackValid (h : ackValid a una nxt) (hhl : ¬Halfway a una nxt) :
    (a - una).toNat ≤ (nxt - una).toNat := by
  have hack := a.toNat_lt
  have huna := una.toNat_lt
  have hnxt := nxt.toNat_lt
  rw [ackValid_iff] at h
  simp only [Halfway, ← UInt32.toNat_inj, UInt32.toNat_sub, UInt32.toNat_add,
    UInt32.reduceToNat] at h hhl ⊢
  omega

/-! ## What is outstanding -/

namespace SendSide

/-- The acknowledgement, if the move is one, is not half a circle away. -/
def InInterval (v : SendSide) : Move → Prop
  | .ack a => ¬Halfway a v.una v.nxt
  | _ => True

/-- Before the handshake is complete, at most the SYN is outstanding. -/
def Opens (v : SendSide) : Prop :=
  v.synced = false → v.una = v.iss ∧ (v.nxt = v.iss ∨ v.nxt = v.iss + 1)

structure Windowed (v : SendSide) : Prop where
  opens : v.Opens
  bound : v.synced → (v.nxt - v.una).toNat ≤ maxTcpPayload + if v.finSent then 1 else 0
  idle : v.synced → v.unacked.active = false → v.nxt = v.una

variable {v : SendSide}

theorem Opens.of_synced (h : v.synced) : v.Opens :=
  fun hsyn => absurd (hsyn.symm.trans h) Bool.false_ne_true

theorem Opens.move (h : v.Opens) {m : Move} (hal : v.Allows m) : (v.move m).Opens := by
  cases m with
  | syn nxt =>
    obtain ⟨hsyn, hnxt⟩ := hal
    obtain ⟨huna, hold⟩ := h hsyn
    refine fun _ => ⟨huna, ?_⟩
    rcases hnxt with rfl | rfl
    · exact hold
    · exact .inr rfl
  | synAck => exact .of_synced rfl
  | ack | queue | segment | fin => exact .of_synced hal.1

theorem Windowed.ack (h : v.Windowed) (hal : v.Allows (.ack a))
    (hhl : ¬Halfway a v.una v.nxt) : (v.move (.ack a)).Windowed := by
  obtain ⟨hsy, hvl⟩ := hal
  have hin := interval_of_ackValid hvl hhl
  have hbn := h.bound hsy
  have hls : (v.nxt - a).toNat ≤ (v.nxt - v.una).toNat := by
    have := a.toNat_lt
    simp only [UInt32.toNat_sub] at hin ⊢
    omega
  refine ⟨.of_synced hsy, fun _ => hls.trans hbn, fun _ hac => ?_⟩
  by_cases hall : a = v.nxt
  · exact hall.symm
  -- a segment that is no longer kept was acknowledged before
  have hid := h.idle hsy (by simpa [move, hall] using hac)
  rw [hid, UInt32.sub_self] at hin
  have hzr : a - v.una = 0 := UInt32.toNat_inj.1 (Nat.le_zero.1 hin)
  have hsm : a = v.una := by
    rw [← UInt32.sub_add_cancel a v.una, hzr, UInt32.zero_add]
  exact absurd (hsm.trans hid.symm) hall

theorem Windowed.segment (h : v.Windowed) {n : Nat} (hal : v.Allows (.segment n)) :
    (v.move (.segment n)).Windowed := by
  obtain ⟨hsy, hfin, hac, -, hle, -⟩ := hal
  have hid := h.idle hsy hac
  refine ⟨.of_synced hsy, fun _ => ?_, fun _ hnn => (by cases hnn)⟩
  have hsub : v.nxt + UInt32.ofNat n - v.una = UInt32.ofNat n := by
    rw [hid, UInt32.add_comm, UInt32.add_sub_cancel]
  change (v.nxt + UInt32.ofNat n - v.una).toNat ≤ maxTcpPayload + if v.finSent then 1 else 0
  rw [hsub]
  exact (Nat.mod_le _ _).trans (hle.trans (Nat.le_add_right _ _))

theorem Windowed.fin (h : v.Windowed) (hal : v.Allows .fin) : (v.move .fin).Windowed := by
  obtain ⟨hsy, hfin⟩ := hal
  have hbn := h.bound hsy
  rw [hfin] at hbn
  refine ⟨.of_synced hsy, fun _ => ?_, fun _ hnn => (by cases hnn)⟩
  change (v.nxt + 1 - v.una).toNat ≤ maxTcpPayload + 1
  simp only [maxTcpPayload, UInt32.toNat_sub, UInt32.toNat_add, UInt32.toNat_one] at hbn ⊢
  simp only [Bool.false_eq_true, if_false, Nat.add_zero] at hbn
  omega

theorem Windowed.move (h : v.Windowed) {m : Move} (hal : v.Allows m) (hin : v.InInterval m) :
    (v.move m).Windowed := by
  cases m with
  | syn nxt =>
    have hun : v.synced ≠ true := fun hsy =>
      absurd (hal.1.symm.trans hsy) Bool.false_ne_true
    exact ⟨h.opens.move hal, fun hsy => absurd hsy hun, fun hsy => absurd hsy hun⟩
  | synAck =>
    refine ⟨h.opens.move hal, fun _ => ?_, fun _ _ => rfl⟩
    change (v.iss + 1 - (v.iss + 1)).toNat ≤ _
    rw [UInt32.sub_self]
    exact Nat.zero_le _
  | ack a => exact h.ack hal hin
  | queue data => exact ⟨h.opens.move hal, h.bound, h.idle⟩
  | segment n => exact h.segment hal
  | fin => exact h.fin hal

/-- After an acknowledgement half a circle away, half of the circle is outstanding. -/
theorem halfway_exceeds (h : Halfway a v.una v.nxt) {n : Nat} (hn : n ≤ maxTcpPayload) :
    maxTcpPayload + 1 < (v.nxt + UInt32.ofNat n - a).toNat := by
  obtain ⟨hnxt, rfl⟩ := h
  simp only [hnxt, maxTcpPayload, UInt32.toNat_sub, UInt32.toNat_add, UInt32.toNat_ofNat',
    UInt32.reduceToNat] at hn ⊢
  omega

end SendSide

/-! ## Accepted acknowledgements -/

namespace TcpConnection

variable {c : TcpConnection}

/-- The acknowledgement number passes the check of the state. -/
def acceptsAck (c : TcpConnection) (seg : TcpSegment) : Bool :=
  match c.state with
  | .synSent => seg.flags.contains .syn && seg.flags.contains .ack && seg.ack == c.iss + 1
  | .established | .finWait1 | .finWait2 | .closing | .closeWait =>
    seg.flags.contains .ack && ackValid seg.ack c.sndUna c.sndNxt
  | .lastAck => seg.flags.contains .ack && seg.ack == c.sndNxt
  | .timeWait | .closed | .reset => false

/-- An acknowledgement that does not pass the check is not applied. -/
theorem sndUna_onSegment (h : c.failed = none) (hno : c.acceptsAck seg = false)
    (payload : List UInt8) : (c.onSegment seg payload).2.sndUna = c.sndUna := by
  cases hrst : seg.flags.contains .rst with
  | true =>
    simp only [onSegment, h, hrst, if_true]
    split <;> rfl
  | false =>
    have hta : c.state.takesAck → (c.onSegment seg payload).2.sndUna = c.sndUna := fun htk => by
      obtain ⟨-, -, hfd⟩ := onSegment_handles h htk hrst payload
      refine (congrArg (·.2.1) hfd).trans (congrArg sndUna (if_neg ?_))
      cases hs : c.state <;> simp_all [acceptsAck, TcpState.takesAck]
    rw [onSegment_eq_dispatch h hrst] at hta ⊢
    unfold dispatch at hta ⊢
    cases hs : c.state with
    | synSent =>
      simp only [acceptsAck, hs] at hno
      simp only [onSynSent]
      split
      · rfl
      · split
        · rfl
        · simp_all
    | lastAck | timeWait =>
      simp only [onLastAck, onTimeWait]
      repeat' split
      all_goals rfl
    | closed | reset => rfl
    | _ =>
      simp only [hs] at hta
      exact hta rfl

/-- In a synchronized state, an accepted number is in the interval, or half a circle away. -/
theorem interval_of_acceptsAck (h : c.state ≠ .synSent) (hac : c.acceptsAck seg) :
    (seg.ack - c.sndUna).toNat ≤ (c.sndNxt - c.sndUna).toNat ↔
      ¬Halfway seg.ack c.sndUna c.sndNxt := by
  constructor
  · intro hin hhl
    exact absurd hin (Nat.not_le.2 (ackValid_halfway hhl).2)
  · intro hhl
    unfold acceptsAck at hac
    split at hac
    · next hs => exact absurd hs h
    case h_2 | h_3 | h_4 | h_5 | h_6 =>
      exact interval_of_ackValid (Bool.and_eq_true_iff.1 hac).2 hhl
    · rw [eq_of_beq (Bool.and_eq_true_iff.1 hac).2]
    all_goals cases hac

/-- In SYN-SENT, `iss + 1` is in the interval once the SYN is counted. -/
theorem interval_of_synSent (hop : c.sendSide.Opens) (h : c.state = .synSent)
    (hac : c.acceptsAck seg) :
    (seg.ack - c.sndUna).toNat ≤ (c.sndNxt - c.sndUna).toNat ↔ c.sndNxt = c.iss + 1 := by
  obtain ⟨huna, hnxt⟩ := hop (by simp [TcpConnection.sendSide, h])
  have hack : seg.ack = c.iss + 1 := by
    simp only [acceptsAck, h, Bool.and_eq_true_iff, beq_iff_eq] at hac
    exact hac.2
  change c.sndUna = c.iss at huna
  change c.sndNxt = c.iss ∨ c.sndNxt = c.iss + 1 at hnxt
  rw [hack, huna]
  refine ⟨fun hin => hnxt.resolve_left fun hun => ?_, fun hsn => by rw [hsn]⟩
  rw [hun, UInt32.sub_self, UInt32.add_comm, UInt32.add_sub_cancel] at hin
  exact absurd hin (by decide)

/-! ## Lives of a connection -/

/-- The segment acknowledges a number half a circle away. -/
def HalfwayAck (e : ConnEvent) : Prop :=
  ∃ c now seg payload link, e.pre = some c ∧ e.input = .deliver now seg payload link ∧
    c.TakesAck seg ∧ Halfway seg.ack c.sndUna c.sndNxt

theorem deliver_isSome (now : Nat) (link : Link) {payload : List UInt8}
    (h : (c.onSegment seg payload).1 = .none ∨ (c.onSegment seg payload).1 = .sendAck ∨
      (c.onSegment seg payload).1 = .maybeSendData) :
    ∃ c', (c.deliver now seg payload link).2.1 = some c' := by
  unfold deliver
  split <;> rename_i hseg
  · split <;> exact ⟨_, rfl⟩
  · exact ⟨_, rfl⟩
  · simp [hseg] at h
  · simp [hseg] at h
  · exact ⟨_, rfl⟩

theorem exceeds_of_halfway (h : c.Coherent) (htk : c.TakesAck seg)
    (hhl : Halfway seg.ack c.sndUna c.sndNxt) (now : Nat) (payload : List UInt8) (link : Link) :
    ∃ c', (c.apply (.deliver now seg payload link)).2 = some c' ∧
      maxTcpPayload + 1 < (c'.sndNxt - c'.sndUna).toNat := by
  obtain ⟨c', hc'⟩ := deliver_isSome now link (onSegment_handles h.failed htk.1 htk.2.1 payload).1
  refine ⟨c', hc', ?_⟩
  obtain ⟨hch, hsn⟩ := h.deliver_sends hc'
  have hsd : (c.onSegment seg payload).2.sendSide = c.sendSide.move (.ack seg.ack) :=
    onSegment_takesAck h.failed htk (ackValid_halfway hhl).1 payload
  -- whether a data segment follows or not
  have hnxt : ∃ n, n ≤ maxTcpPayload ∧ c'.sendSide.una = seg.ack ∧
      c'.sendSide.nxt = c.sndNxt + UInt32.ofNat n := by
    have hsm : ∀ d : TcpConnection, d.sendSide = c.sendSide.move (.ack seg.ack) →
        ∃ n, n ≤ maxTcpPayload ∧ d.sendSide.una = seg.ack ∧
          d.sendSide.nxt = c.sndNxt + UInt32.ofNat n := fun d hd => by
      rw [hd]
      exact ⟨0, Nat.zero_le _, rfl, (UInt32.add_zero c.sndNxt).symm⟩
    rcases hsn with hqt | hqt
    · exact hsm c' (hqt.sendSide.trans hsd)
    rcases takeSegment_sendSide _ hch.ours now with hnn | ⟨n, hal, hmv⟩
    · exact hsm c' (hqt.sendSide.trans (hnn.trans hsd))
    · obtain ⟨-, -, -, -, hle, -⟩ := hal
      rw [hqt.sendSide, hmv, hsd]
      exact ⟨n, hle, rfl, rfl⟩
  obtain ⟨n, hn, huna, hnxt⟩ := hnxt
  change maxTcpPayload + 1 < (c'.sendSide.nxt - c'.sendSide.una).toNat
  rw [huna, hnxt]
  exact SendSide.halfway_exceeds (v := c.sendSide) hhl hn

theorem Windowed.step (h : c.Coherent)
    (hhl : ¬HalfwayAck (.of TcpConnection.step (some c) op)) (hw : c.sendSide.Windowed)
    (hst : Step c op c') : c'.sendSide.Windowed := by
  obtain ⟨ms, hpt, -⟩ := hst.path (R := SendSide.InInterval) (fun v m hrt => by
      cases m with
      | ack a => cases hrt
      | _ => trivial) h
    (fun now seg payload link hop htk hhl' =>
      hhl ⟨c, now, seg, payload, link, rfl, hop, htk, hhl'⟩)
    (fun _ _ _ _ => trivial)
  exact hpt.invariant (P := fun _ v => v.Windowed) (fun _ v m hal hin hv => hv.move hal hin) [] hw

theorem Opens.step (h : c.Coherent) (hop : c.sendSide.Opens) (hst : Step c op c') :
    c'.sendSide.Opens := by
  obtain ⟨ms, hpt, -⟩ := hst.path (fun _ _ _ => trivial) h
    (fun _ _ _ _ _ _ => trivial) (fun _ _ _ _ => trivial)
  exact hpt.invariant (P := fun _ v => v.Opens) (fun _ v m hal _ hv => hv.move hal) [] hop

end TcpConnection

namespace Opening

open TcpConnection

variable (o : Opening)

theorem windowed_conn : o.conn.sendSide.Windowed := by
  obtain ⟨nxt, hnxt, hqt⟩ := TcpConnection.connect_cases
    (.new o.owner o.localAddr o.remote o.iss) o.now o.link
  rw [show o.conn.sendSide = _ from hqt.sendSide]
  exact ⟨fun _ => ⟨rfl, hnxt⟩, fun hsy => (by cases hsy), fun hsy => (by cases hsy)⟩

variable (ops : List ConnOp) {c : TcpConnection} (hc : o.after ops = some c)
include hc

theorem opens_after : c.sendSide.Opens :=
  (o.life_invariant (R := fun _ => True) (P := fun _ c => c.sendSide.Opens) o.windowed_conn.opens
    (fun _ _ _ _ h _ hop _ hst => Opens.step h hop hst) ops (fun _ _ => trivial) c hc).2

/-- Without an acknowledgement half a circle away, the window holds throughout. -/
theorem windowed_after (hrg : ∀ e ∈ trace step (some o.conn) ops, ¬HalfwayAck e) :
    c.sendSide.Windowed :=
  (o.life_invariant (P := fun _ c => c.sendSide.Windowed) o.windowed_conn
    (fun _ _ _ _ h hhl hw _ hst => Windowed.step h hhl hw hst) ops hrg c hc).2

end Opening

theorem SendSide.Opens.outstanding_le {v : SendSide} (h : v.Opens) (hsy : v.synced = false) :
    (v.nxt - v.una).toNat ≤ maxTcpPayload + 1 := by
  obtain ⟨huna, hnxt⟩ := h hsy
  rw [huna]
  rcases hnxt with hnxt | hnxt <;> rw [hnxt]
  · rw [UInt32.sub_self]
    decide
  · rw [UInt32.add_comm, UInt32.add_sub_cancel]
    decide

theorem SendSide.Windowed.outstanding_le {v : SendSide} (h : v.Windowed) :
    (v.nxt - v.una).toNat ≤ maxTcpPayload + 1 := by
  cases hsy : v.synced with
  | true =>
    have hbn := h.bound hsy
    split at hbn <;> omega
  | false => exact h.opens.outstanding_le hsy

namespace TcpConnection

/-- In a synchronized state, an accepted acknowledgement is outside of the interval exactly when
nothing is outstanding and the number is half a circle away, and in SYN-SENT exactly when the SYN is
not counted as sent. In every life of a connection, at most one segment and a FIN are outstanding as
long as no number half a circle away was acknowledged. A number that is not accepted is not
applied. -/
theorem ack_window_iff (c : TcpConnection) (seg : TcpSegment) (o : Opening) (ops : List ConnOp) :
    (c.state ≠ .synSent → c.acceptsAck seg = true →
      ((seg.ack - c.sndUna).toNat ≤ (c.sndNxt - c.sndUna).toNat ↔
        ¬Halfway seg.ack c.sndUna c.sndNxt)) ∧
    (o.after ops = some c → c.state = .synSent → c.acceptsAck seg = true →
      ((seg.ack - c.sndUna).toNat ≤ (c.sndNxt - c.sndUna).toNat ↔ c.sndNxt = c.iss + 1)) ∧
    ((∀ before, before <+: ops → ∀ c, o.after before = some c →
      (c.sndNxt - c.sndUna).toNat ≤ maxTcpPayload + 1) ↔
      ∀ e ∈ trace step (some o.conn) ops, ¬HalfwayAck e) ∧
    (c.failed = none → c.acceptsAck seg = false →
      ∀ payload, (c.onSegment seg payload).2.sndUna = c.sndUna) := by
  refine ⟨fun hsy hac => interval_of_acceptsAck hsy hac,
    fun hc hs hac => interval_of_synSent (o.opens_after ops hc) hs hac,
    ⟨fun hbn e he hhl => ?_, fun hrg before hbf c hc => ?_⟩, sndUna_onSegment⟩
  · obtain ⟨js, op, ks, rfl, rfl⟩ := mem_trace step he
    obtain ⟨c, now, seg, payload, link, hpre, hop, htk, hhl⟩ := hhl
    obtain rfl : op = .deliver now seg payload link := hop
    obtain ⟨c', hc', hex⟩ := exceeds_of_halfway (o.coherent_after js hpre) htk hhl now payload link
    refine absurd (hbn (js ++ [.deliver now seg payload link]) ⟨ks, by simp⟩ c' ?_)
      (Nat.not_le.2 hex)
    have hrun := run_snoc step (some o.conn) js (.deliver now seg payload link)
    rw [show run step (some o.conn) js = some c from hpre] at hrun
    exact hrun.trans hc'
  · obtain ⟨rest, rfl⟩ := hbf
    refine (o.windowed_after before hc fun e he => hrg e ?_).outstanding_le
    rw [trace_append]
    exact List.mem_append_left _ he

/-- A connection opened at tick 0 over a link that takes every segment. -/
def sampleOpening : Opening where
  owner := ⟨1, 1, 1⟩
  localAddr := ⟨.new 10 0 2 15, 50000⟩
  remote := ⟨.new 10 0 2 2, 4001⟩
  iss := 1000
  now := 0
  link := ⟨[], []⟩

def samplePeer (flags : TcpFlags) (seq ack : UInt32) : TcpSegment :=
  ⟨4001, 50000, seq, ack, 5, flags, 8192, 0, 0, none⟩

def sampleSynAck : ConnOp := .deliver 1 (samplePeer (TcpFlags.syn.union .ack) 5000 1001) [] ⟨[], []⟩

theorem ack_window_iff_handshake :
    ∃ c, sampleOpening.after [sampleSynAck] = some c ∧ c.state ≠ .synSent ∧
      c.acceptsAck (samplePeer .ack 5001 1001) = true ∧
      ((1001 : UInt32) - c.sndUna).toNat ≤ (c.sndNxt - c.sndUna).toNat ∧
      (c.sndNxt - c.sndUna).toNat ≤ maxTcpPayload + 1 := by
  have h := fun c => ack_window_iff c (samplePeer .ack 5001 1001) sampleOpening [sampleSynAck]
  refine ⟨(sampleOpening.conn.deliver 1 (samplePeer (TcpFlags.syn.union .ack) 5000 1001) []
    ⟨[], []⟩).2.1.get rfl, rfl, by decide, by decide, ?_, ?_⟩
  · exact ((h _).1 (by decide) (by decide)).2 (by decide)
  · refine ((h sampleOpening.conn).2.2.1.2 ?_) [sampleSynAck] List.prefix_rfl _ rfl
    intro e he ⟨c, now, seg, payload, link, hpre, hop, htk, _⟩
    obtain rfl : e = .of step (some sampleOpening.conn) sampleSynAck := List.mem_singleton.1 he
    obtain rfl : sampleOpening.conn = c := Option.some.inj hpre
    exact absurd htk.1 (by decide)

/-- Right after the handshake, an acknowledgement of a number half a circle away is accepted, and
leaves half of the circle outstanding. While the SYN waits for the neighbour, an acknowledgement of it
is accepted although nothing was sent. -/
theorem halfway_ack_opens_window :
    ackValid (1001 + 0x80000000) 1001 1001 = true ∧
    (sampleOpening.after [sampleSynAck,
      .deliver 2 (samplePeer .ack 5001 (1001 + 0x80000000)) [] ⟨[], []⟩]).map
      (fun c => (c.state, c.sndNxt - c.sndUna)) = some (.established, 0x80000000) ∧
    (let c := ({ sampleOpening with link := ⟨[.error .unreachable], []⟩ } : Opening).conn
     c.acceptsAck (samplePeer (TcpFlags.syn.union .ack) 5000 1001) = true ∧
      c.sndUna = 1000 ∧ c.sndNxt = 1000) := by
  decide

end TcpConnection

end CleanSlate.Network.Tcp
