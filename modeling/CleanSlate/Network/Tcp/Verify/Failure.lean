import CleanSlate.Network.Tcp.Verify.Receive

/-!
# Bytes that were not read when a connection fails

A reset and a timeout release the buffers of a connection before the transport asks whether there is
anything left to read. So the slot is always freed at once (`fails_frees`), and what was acknowledged
and not read is lost.
-/

namespace CleanSlate.Network.Tcp

open Lib

namespace TcpConnection

variable {c : TcpConnection}

/-- The step makes the connection fail: a reset was accepted, or a timer gave up. -/
def Fails (c : TcpConnection) : ConnOp → Prop
  | .deliver _ seg payload _ => ∃ e, (c.onSegment seg payload).1 = .failed e
  | .pollTimers now _ => ∃ e, (c.tickTimers now).1 = .failed e
  | _ => False

/-- However large the slices it asks for, the application receives these bytes, in order, before the
slot is freed or an error is reported. -/
inductive Drains : Option TcpConnection → List UInt8 → Prop
  | done {slot : Option TcpConnection} : Drains slot []
  | more {slot : Option TcpConnection} {bytes : List UInt8}
      (first : ∀ cap, 0 < cap → (step slot (.receive cap)).1 = .received (.ok (bytes.take cap)))
      (rest : ∀ cap, 0 < cap → Drains (step slot (.receive cap)).2 (bytes.drop cap)) :
      Drains slot bytes

theorem drains_freed {bytes : List UInt8} : Drains none bytes ↔ bytes = [] := by
  constructor
  · intro h
    cases h with
    | done => rfl
    | more first _ => cases first 1 Nat.one_pos
  · rintro rfl
    exact .done

/-- No handler of a state fails a connection. -/
theorem dispatch_not_failed (seg : TcpSegment) (payload : List UInt8) (e : NetworkError) :
    (c.dispatch seg payload).1 ≠ .failed e := by
  unfold dispatch onSynSent onFinWait1 onFinWait2 onClosing onTimeWait onLastAck onCloseWait
    onEstablished
  dsimp only
  -- every branch of a handler asks for something else
  repeat' split
  all_goals nofun

theorem fails_frees (h : c.Coherent) {op : ConnOp} (hfl : c.Fails op) : (c.apply op).2 = none := by
  cases op with
  | deliver now seg payload link =>
    obtain ⟨e, he⟩ := hfl
    rcases c.onSegment_cases h.failed seg payload with ⟨-, hac, -, hfr⟩ | ⟨-, heq⟩ | ⟨-, heq⟩
    · change (c.deliver now seg payload link).2.1 = none
      unfold deliver
      generalize c.onSegment seg payload = result at hac hfr ⊢
      obtain ⟨action, c'⟩ := result
      subst hac
      exact hfr
    · rw [heq] at he
      cases he
    · rw [heq] at he
      exact absurd he (c.dispatch_not_failed seg payload e)
  | pollTimers now link =>
    obtain ⟨e, he⟩ := hfl
    rcases c.tickTimers_cases now h.failed with ⟨e', cf, htc, hfr⟩ | hcl | ⟨hac, -⟩
    · change (c.pollTimers now link).2.1 = none
      unfold pollTimers
      rw [htc]
      exact hfr
    · rw [hcl] at he
      cases he
    · rcases hac with hac | hac <;> rw [hac] at he <;> cases he
  | _ => cases hfl

/-- What was acknowledged and not read stays available when a connection fails exactly if there is
nothing of it. -/
theorem unread_kept_iff (o : Opening) (ops : List ConnOp) :
    (∀ e ∈ trace step (some o.conn) ops, ∀ c, e.pre = some c → c.Fails e.input →
      Drains e.post c.recvBuf.contents) ↔
    ∀ e ∈ trace step (some o.conn) ops, ∀ c, e.pre = some c → c.Fails e.input →
      c.recvBuf.contents = [] := by
  refine forall₂_congr fun e he => forall₂_congr fun c hpre => forall_congr' fun hfl => ?_
  obtain ⟨before, op, after, rfl, rfl⟩ := mem_trace step he
  have hfr : (step (run step (some o.conn) before) op).2 = none := by
    rw [show run step (some o.conn) before = some c from hpre]
    exact fails_frees (o.coherent_after before hpre) hfl
  rw [← drains_freed, ← hfr]
  rfl

/-- The peer resets the connection after one byte. -/
def sampleReset : ConnOp := .deliver 3 (samplePeer .rst 5002 0) [] ⟨[], []⟩

theorem unread_kept_read :
    (∃ c, sampleOpening.after sampleOneByte = some c ∧ c.Fails sampleReset) ∧
      ∀ e ∈ trace step (some sampleOpening.conn) (sampleOneByte ++ [sampleReset]), ∀ c,
        e.pre = some c → c.Fails e.input → Drains e.post c.recvBuf.contents := by
  refine ⟨⟨_, rfl, .reset, rfl⟩, (unread_kept_iff _ _).2 fun e he c hpre hfl => ?_⟩
  -- nothing is buffered before a segment arrives, and a read does not fail
  simp only [sampleOneByte, List.cons_append, List.nil_append, trace, List.mem_cons,
    List.not_mem_nil, or_false] at he
  rcases he with rfl | rfl | rfl | rfl
  case inr.inr.inl => cases hfl
  all_goals
    obtain rfl := Option.some.inj hpre
    decide

/-- Two bytes arrive and are acknowledged. -/
def sampleUnread : List ConnOp :=
  [sampleSynAck, .deliver 2 (samplePeer .ack 5001 1001) [7, 8] ⟨[], []⟩]

/-- After a reset, there is no connection to receive them from. -/
theorem reset_drops_unread :
    (sampleOpening.after sampleUnread).map (fun c => (c.recvBuf.contents, c.rcvNxt)) =
      some ([7, 8], 5003) ∧
    (step (sampleOpening.after (sampleUnread ++ [.deliver 3 (samplePeer .rst 5003 0) [] ⟨[], []⟩]))
      (.receive 2)).1 = .received (.error .notFound) :=
  ⟨by decide, rfl⟩

end TcpConnection

end CleanSlate.Network.Tcp
