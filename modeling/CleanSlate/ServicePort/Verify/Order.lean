import CleanSlate.ServicePort.Verify.Slotwise

/-!
# Sequence numbers

Every accepted request, posted event and ended connection draws the next number of its port. The
counter wraps at `2 ^ 64`; as long as it does not, the numbers in each queue of a port are distinct
and below the counter, in the order in which they were drawn.
-/

namespace CleanSlate.ServicePort

open Lib PortCore List
open Function (update_self update_of_ne update_apply)
open Capability

variable {P C N : Nat} {B : Type} {obs : Observation} {q : Fin P}

/-! ## The counter -/

theorem seqAfter_lt (seq : Nat) : seqAfter seq < 2 ^ 64 := by
  unfold seqAfter
  omega

variable {seq : Nat} {conn : Connection} {core' core : PortCore P C B} {effects : List (Effect B)}

theorem seqAfter_of_le (h : seq ≤ seqAfter seq) : seqAfter seq = seq + 1 := by
  unfold seqAfter at h ⊢
  omega

theorem seqAfter_of_lt (hbn : seq < 2 ^ 64) (h : seqAfter seq < seq) :
    seqAfter seq = 1 ∧ seq + 1 = 2 ^ 64 := by
  unfold seqAfter at h ⊢
  omega

/-! ## Ordered queues -/

/-- The numbers of a connection's events increase, and all its numbers are below `seq`. -/
structure Connection.Below (seq : Nat) (conn : Connection) : Prop where
  notice : conn.state.isClosePending → conn.closeSeq < seq
  increasing : conn.events.toList.Pairwise fun a b => a.seq < b.seq
  events : ∀ event ∈ conn.events.toList, event.seq < seq

theorem Connection.Below.mono {seq' : Nat} (h : conn.Below seq) (hle : seq ≤ seq') :
    conn.Below seq' :=
  ⟨fun hn => Nat.lt_of_lt_of_le (h.notice hn) hle, h.increasing,
    fun event he => Nat.lt_of_lt_of_le (h.events event he) hle⟩

/-- The queues of the port `p`. -/
structure OrderedAt (core : PortCore P C B) (p : Fin P) : Prop where
  bound : (core.ports p).nextSeq < 2 ^ 64
  requests : ∀ entry, ((core.ports p).requests entry).isLive →
    ((core.ports p).requests entry).seq < (core.ports p).nextSeq
  distinct : ∀ entry other, ((core.ports p).requests entry).isLive →
    ((core.ports p).requests other).isLive →
    ((core.ports p).requests entry).seq = ((core.ports p).requests other).seq → entry = other
  connections : ∀ c, (core.connections c).state ≠ .free →
    (core.connections c).port = core.key p → (core.connections c).Below (core.ports p).nextSeq
  notices : ∀ c d, PortCore.notice (core.key p) (core.connections c) →
    PortCore.notice (core.key p) (core.connections d) →
    (core.connections c).closeSeq = (core.connections d).closeSeq → c = d

/-- The queues of every live port. -/
def Ordered (core : PortCore P C B) : Prop := ∀ p, (core.ports p).live → OrderedAt core p

/-! ## One move -/

/-- What a move does to the numbers of a port that stays registered: it draws at most one, and if
the counter does not wrap the queues stay ordered. -/
structure Draws (core core' : PortCore P C B) (p : Fin P) : Prop where
  live : (core.ports p).live
  key : core'.key p = core.key p
  seq : (core'.ports p).nextSeq = (core.ports p).nextSeq ∨
    (core'.ports p).nextSeq = seqAfter (core.ports p).nextSeq
  ordered : (core.ports p).nextSeq ≤ (core'.ports p).nextSeq → OrderedAt core p → OrderedAt core' p

variable {d : Fin C}

section

/-- The numbers of a connection bound to a port after a move that does not wrap its counter. -/
theorem ConnMove.below (hP : P ≤ 255) (inv : Inv core)
    (h : ConnMove core core' effects d obs conn) (ordered : OrderedAt core q)
    (hlv : (core.ports q).live)
    (hle : (core.ports q).nextSeq ≤ (core'.ports q).nextSeq) (hus : conn.state ≠ .free)
    (hpr : conn.port = core.key q) : conn.Below (core'.ports q).nextSeq := by
  have hbl := ordered.connections d
  cases h with
  | kept => exact (hbl hus hpr).mono hle
  | opened | severed => exact ⟨fun hn => (nomatch hn), .nil, fun _ he => (nomatch he)⟩
  | counted on =>
    have hold := (hbl on.used hpr).mono hle
    exact ⟨hold.notice, hold.increasing, hold.events⟩
  | @posted p frame on room drawn =>
    obtain rfl := key_inj hP (on.port.symm.trans hpr)
    have hsc := seqAfter_of_le (drawn ▸ hle)
    have hold := hbl on.used hpr
    have hdp := (PortParams.validate_ok ((inv.ports p).params hlv)).1
    have hps := (core.connections d).events.toList_push ⟨(core.ports p).nextSeq, frame⟩ (by omega)
    refine ⟨(hold.mono hle).notice, ?_, fun event he => ?_⟩
    · rw [hps, pairwise_append]
      refine ⟨hold.increasing, pairwise_singleton .., fun a ha b hb => ?_⟩
      rw [mem_singleton.1 hb]
      exact hold.events a ha
    · rw [hps, mem_append] at he
      rcases he with he | he
      · exact (hold.mono hle).events event he
      · rw [mem_singleton.1 he]
        simp only
        omega
  | @took event events state pop =>
    have hold := (hbl hus hpr).mono hle
    have htl : events.toList.Sublist (core.connections d).events.toList := by
      rcases Ring.pop_eq (core.connections d).events with ⟨h, -⟩ | ⟨a, r, h, hls, -⟩
      · rw [pop] at h
        cases h
      · rw [pop] at h
        cases h
        rw [hls]
        exact sublist_cons_self ..
    exact ⟨hold.notice, hold.increasing.sublist htl,
      fun event he => hold.events event (htl.subset he)⟩
  | freed => exact absurd rfl hus
  | disconnected on =>
    have hold := (hbl on.used hpr).mono hle
    exact ⟨fun hn => (nomatch hn), hold.increasing, hold.events⟩
  | closed on drawn =>
    obtain rfl := key_inj hP (on.port.symm.trans hpr)
    refine ⟨fun _ => ?_, .nil, fun _ he => (nomatch he)⟩
    rw [drawn, seqAfter_of_le (drawn ▸ hle)]
    exact Nat.lt_succ_self _

section

variable (hP : P ≤ 255) (hC : C ≤ 65535) (move : Move core obs effects core') (inv : Inv core)
  (ordered : OrderedAt core q)
include hP hC move inv ordered

/-- The notices of a port after a move that does not wrap its counter: a new one has the number that
was just drawn, and the older ones are below it. -/
theorem OrderedAt.notices_next {d e : Fin C}
    (hd : PortCore.notice (core.key q) (core'.connections d))
    (he : PortCore.notice (core.key q) (core'.connections e))
    (heq : (core'.connections d).closeSeq = (core'.connections e).closeSeq) : d = e := by
  have hbf : ∀ {d : Fin C}, PortCore.notice (core.key q) (core'.connections d) →
      core'.connections d = core.connections d →
      (core'.connections d).closeSeq < (core.ports q).nextSeq := by
    intro d hn hsm
    rw [hsm] at hn ⊢
    obtain ⟨hpr, hpn⟩ := notice_iff.1 hn
    exact (ordered.connections d (Connection.used_of_notice hpn) hpr).notice hpn
  rcases (move.atConnection hC inv d).notice hP hd with hsd | ⟨hon, hwd, hsd⟩ <;>
    rcases (move.atConnection hC inv e).notice hP he with hse | ⟨hon', hwe, hse⟩
  · rw [hsd] at hd heq
    rw [hse] at he heq
    exact ordered.notices d e hd he heq
  · have := hbf hd hsd
    omega
  · have := hbf he hse
    omega
  · by_contra hne
    have hwk := append_cancel_left (hwe.symm.trans hwd)
    exact inv.connectionId_ne hC hon'.used hon.used hne (by simpa using hwk)

/-- The queues of a port that stays registered, after a move that does not wrap its counter. -/
theorem OrderedAt.next (hlv : (core.ports q).live) (hkey : core'.key q = core.key q)
    (hle : (core.ports q).nextSeq ≤ (core'.ports q).nextSeq)
    (hbn : (core'.ports q).nextSeq < 2 ^ 64) (new : Fin portMaxRequestQueueDepth)
    (hrq : ∀ entry, ((core'.ports q).requests entry).isLive →
      (core'.ports q).requests entry = (core.ports q).requests entry ∨
        entry = new ∧ ((core'.ports q).requests entry).seq = (core.ports q).nextSeq ∧
          (core.ports q).nextSeq < (core'.ports q).nextSeq) : OrderedAt core' q where
  bound := hbn
  requests entry h := by
    rcases hrq entry h with hsm | ⟨-, hseq, hlt⟩
    · rw [hsm] at h ⊢
      exact Nat.lt_of_lt_of_le (ordered.requests entry h) hle
    · rw [hseq]
      exact hlt
  distinct entry other h1 h2 heq := by
    rcases hrq entry h1 with hs1 | ⟨he1, hseq1, -⟩ <;>
      rcases hrq other h2 with hs2 | ⟨he2, hseq2, -⟩
    · rw [hs1] at h1 heq
      rw [hs2] at h2 heq
      exact ordered.distinct entry other h1 h2 heq
    · rw [hs1] at h1 heq
      have := ordered.requests entry h1
      omega
    · rw [hs2] at h2 heq
      have := ordered.requests other h2
      omega
    · rw [he1, he2]
  connections d hus hpr :=
    (move.atConnection hC inv d).below hP inv ordered hlv hle hus (hpr.trans hkey)
  notices d e hd he := by
    rw [hkey] at hd he
    exact ordered.notices_next hP hC move inv hd he

end

end

/-! ## Runs without a wrap -/

theorem Move.draws (hP : P ≤ 255) (hC : C ≤ 65535)
    (move : Move core obs effects core') (inv : Inv core) (hlv : (core'.ports q).live) :
    Draws core core' q ∨ obs ≠ .none ∧ core'.key q ≠ core.key q ∧ OrderedAt core' q := by
  cases (move.atPort hP hC inv q).stays hP inv hlv with
  | registered key fresh nextSeq empty =>
    have fresh : Unregistered core (core'.key q) := fresh
    -- no connection names the new key, and nothing is queued
    have hnew : ∀ c, (core'.connections c).state ≠ .free →
        (core'.connections c).port ≠ core'.key q := fun c hus hpr =>
      (move.atConnection hC inv c).registered hP inv hus (hpr ▸ fresh)
    refine .inr ⟨by rw [key]; simp, fun hkey => not_unregistered hP q (hkey ▸ fresh), ?_,
      fun entry h => ?_, fun entry other h => ?_, fun c hu h => absurd h (hnew c hu),
      fun c d h => ?_⟩
    · rw [nextSeq]
      decide
    · rw [empty entry] at h
      cases h
    · rw [empty entry] at h
      cases h
    · obtain ⟨hpr, hpn⟩ := notice_iff.1 h
      exact absurd hpr (hnew c (Connection.used_of_notice hpn))
  | stayed live generation nextSeq new requests =>
    have hkey : core'.key q = core.key q := key_congr generation
    refine .inl ⟨live, hkey, nextSeq, fun hle h => h.next hP hC move inv live hkey hle ?_ new
      fun entry hen => (requests entry hen).imp_right ?_⟩
    · rcases nextSeq with hseq | hseq
      · rw [hseq]
        exact h.bound
      · rw [hseq]
        exact seqAfter_lt _
    · rintro ⟨he, hs, hseq, -⟩
      rw [hseq] at hle ⊢
      exact ⟨he, hs, by rw [seqAfter_of_le hle]; exact Nat.lt_succ_self _⟩

/-- A chain of silent moves: the queues stay ordered and the counter grows by at most one a move,
or it has wrapped. -/
theorem Path.ordered (hP : P ≤ 255) (hC : C ≤ 65535) {n : Nat} (path : Path core n effects core')
    (inv : Inv core) (hn : n < 2 ^ 32) (hlv : (core'.ports q).live)
    (ordered : (core.ports q).live → OrderedAt core q) :
    (core.ports q).live ∧ core'.key q = core.key q ∧
      ((OrderedAt core' q ∧ (core.ports q).nextSeq ≤ (core'.ports q).nextSeq ∧
          (core'.ports q).nextSeq ≤ (core.ports q).nextSeq + n) ∨
        ((core'.ports q).nextSeq ≤ n + 1 ∧ 2 ^ 64 ≤ (core.ports q).nextSeq + n + 1)) := by
  induction path with
  | refl => exact ⟨hlv, rfl, .inl ⟨ordered hlv, le_rfl, le_rfl⟩⟩
  | @snoc n effects more mid core' path move ih =>
    rcases move.draws hP hC (path.inv hP hC inv) hlv with d | ⟨h, -⟩
    · obtain ⟨hpre, hkey, hcs⟩ := ih (by omega) d.live
      refine ⟨hpre, d.key.trans hkey, ?_⟩
      rcases hcs with ⟨ho, hle, hbn⟩ | ⟨hsm, hbig⟩
      · by_cases hmn : (mid.ports q).nextSeq ≤ (core'.ports q).nextSeq
        · refine .inl ⟨d.ordered hmn ho, Nat.le_trans hle hmn, ?_⟩
          rcases d.seq with h | h
          · omega
          · rw [h] at hmn ⊢
            rw [seqAfter_of_le hmn]
            omega
        · rcases d.seq with h | h
          · omega
          · rw [h] at hmn ⊢
            obtain ⟨h1, h2⟩ := seqAfter_of_lt ho.bound (Nat.lt_of_not_le hmn)
            omega
      · refine .inr ⟨?_, by omega⟩
        rcases d.seq with h | h
        · omega
        · rw [h]
          unfold seqAfter
          omega
    · exact absurd rfl h

/-- No call lowers the counter of a port that stays registered. -/
def NoWrap (e : PortEvent P C N B) : Prop := ∀ p, e.post.core.key p = e.pre.core.key p →
    (e.pre.core.ports p).nextSeq ≤ (e.post.core.ports p).nextSeq
deriving Decidable

theorem Steps.ordered [DecidableEq B] (fits : Fits P C)
    (steps : Steps core obs effects core') (inv : Inv core) (ordered : Ordered core)
    (noWrap : ∀ p, core'.key p = core.key p → (core.ports p).nextSeq ≤ (core'.ports p).nextSeq) :
    Ordered core' := by
  have hP := fits.ports.2
  have hC := fits.connections.2
  intro q hlv
  cases steps with
  | move move =>
    rcases move.draws hP hC inv hlv with d | ⟨-, -, h⟩
    · exact d.ordered (noWrap q d.key) (ordered q d.live)
    · exact h
  | path short path =>
    obtain ⟨hpre, hkey, hcs⟩ := path.ordered hP hC inv (by omega) hlv (ordered q)
    rcases hcs with ⟨ho, -⟩ | ⟨hsm, hbig⟩
    · exact ho
    · have hle := noWrap q hkey
      omega

/-- The queues are ordered after every run in which no counter wraps. -/
theorem run_ordered [DecidableEq B] (h : PortCore.new = some core) (table : CapabilityTable N)
    (ops : List (PortOp B)) (noWrap : ∀ e ∈ trace portStep ⟨core, table⟩ ops, NoWrap e) :
    Ordered (run portStep ⟨core, table⟩ ops).core := by
  obtain ⟨fits, rfl⟩ := new_eq h
  have hrun := run_induction portStep (s := ⟨⟨fun _ => .empty, fun _ => .empty⟩, table⟩)
    (P := fun log s => Inv s.core ∧ ((∀ e ∈ log, NoWrap e) → Ordered s.core))
    ⟨.new, fun _ p hp => nomatch hp⟩ (fun log s op ⟨inv, ih⟩ =>
      ⟨(portStep_steps fits s op).inv fits inv, fun hlog =>
        (portStep_steps fits s op).ordered fits inv (ih fun e he => hlog e (mem_append_left _ he))
          (hlog (Event.of portStep s op) (by simp))⟩) ops
  exact hrun.2 noWrap

end CleanSlate.ServicePort
