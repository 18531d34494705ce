import Mathlib.Algebra.BigOperators.Fin
import CleanSlate.ServicePort.Verify.Order
import CleanSlate.ServicePort.Verify.Wrap

/-!
# The engine's own checker never fires

`check_invariants` accepts every core that satisfies the structural invariant, so it accepts the
core after every run.
-/

namespace CleanSlate.ServicePort

open Lib PortCore Slots
open Capability

variable {P C N : Nat} {B : Type} {core : PortCore P C B}

theorem Inv.checkPort_ok (inv : Inv core) (p : Fin P) : checkPort core p = .ok () := by
  have hwf := inv.ports p
  unfold checkPort
  dsimp only
  split
  · next hdd =>
    have hnn := position_none.2 (hwf.dead (by simpa using hdd))
    rw [hnn]
    rfl
  · next hlv =>
    have hlv : (core.ports p).live := by simpa using hlv
    rw [if_neg (Nat.not_lt_of_le (hwf.depth hlv)), if_neg]
    rw [not_or, not_not]
    exact ⟨(hwf.transfers hlv).symm, Nat.not_lt_of_le (hwf.transfers hlv ▸ hwf.maxTransfers hlv)⟩

theorem Inv.queuedBy_eq (hP : P ≤ 255) (hC : C ≤ 65535) (inv : Inv core) {p : Fin P} {c : Fin C}
    (on : OpenOn core p c) (f : Request → Bool) :
    queuedBy core (core.connectionId c) f = count (fun request =>
      request.heldBy (core.connectionId c) && f request) (core.ports p).requests := by
  unfold queuedBy
  rw [← Fin.sum_univ_def, Finset.sum_eq_single p]
  · rfl
  · intro q _ hq
    refine count_eq_zero.2 fun entry => ?_
    by_contra h
    simp only [Bool.not_eq_false, Bool.and_eq_true, decide_eq_true_eq] at h
    obtain ⟨d, hd, hid⟩ := inv.owner q entry h.1.1
    obtain ⟨rfl, -⟩ := connectionId_inj hC (inv.generation hd) (inv.generation on)
      (hid.symm.trans h.1.2)
    exact hq (key_inj hP (hd.port.symm.trans on.port))
  · intro h
    exact absurd (Finset.mem_univ p) h

theorem Inv.queuedBy_eq_zero (hC : C ≤ 65535) (inv : Inv core) {c : Fin C}
    (hgen : (core.connections c).generation ≠ 0) (h : (core.connections c).state ≠ .open)
    (f : Request → Bool) : queuedBy core (core.connectionId c) f = 0 := by
  unfold queuedBy
  rw [← Fin.sum_univ_def]
  refine Finset.sum_eq_zero fun p _ => count_eq_zero.2 fun entry => ?_
  have hnn := inv.no_requests hC (connectionId_slot core hC hgen) h p entry
  unfold Request.heldBy at hnn
  rw [hnn, Bool.false_and]

theorem Inv.checkConnection_ok (hP : P ≤ 255) (hC : C ≤ 65535) (inv : Inv core) (c : Fin C) :
    checkConnection core c = .ok () := by
  unfold checkConnection
  dsimp only
  split
  · rfl
  next hus =>
  have hcn := inv.connections c
  have hgen := hcn.generation hus
  by_cases hop : (core.connections c).state = .open
  · obtain ⟨p, hlv, hpr⟩ := inv.bound c hus (by rw [hop]; simp)
    have on : OpenOn core p c := ⟨hlv, hop, hpr⟩
    have hct := inv.counted p c on
    have hrq : queuedBy core (core.connectionId c) (fun _ => true) =
        (core.connections c).outstanding := by
      rw [inv.queuedBy_eq hP hC on, hct.outstanding]
      exact count_congr fun entry => Bool.and_true _
    have htn : queuedBy core (core.connectionId c) (fun request =>
        request.transfer.isSome) = (core.connections c).transfersInFlight := by
      rw [inv.queuedBy_eq hP hC on, hct.transfers]
      rfl
    have hdp := inv.depth p c hlv hus hpr
    rw [hrq, htn, if_neg (fun h => h.2 hop), if_neg (fun h => h rfl), if_neg,
      hpr, portIndex_key hP hlv]
    · simp only
      rw [if_neg]
      rw [not_or]
      exact ⟨Nat.not_lt_of_le hct.maxOutstanding, Nat.not_lt_of_le hdp⟩
    · rw [not_or]
      exact ⟨fun h => h rfl, Nat.not_lt_of_le hct.maxTransfers⟩
  · obtain ⟨hout, htr⟩ := hcn.idle hop
    rw [inv.queuedBy_eq_zero hC hgen hop, inv.queuedBy_eq_zero hC hgen hop, hout, htr,
      if_neg (fun h => h.1 rfl), if_neg (fun h => h rfl), if_neg]
    · split
      · next p hp =>
        obtain ⟨hlv, hpr⟩ := (portIndex_eq_some hP).1 hp
        rw [if_neg]
        rw [not_or]
        exact ⟨Nat.not_lt_zero _, Nat.not_lt_of_le (inv.depth p c hlv hus hpr)⟩
      · next hp =>
        rw [if_neg]
        intro hgn
        obtain ⟨p, hlv, hpr⟩ := inv.bound c hus hgn
        rw [hpr, portIndex_key hP hlv] at hp
        cases hp
    · rw [not_or]
      exact ⟨fun h => h rfl, Nat.not_lt_zero _⟩

theorem Inv.checkInvariants_ok (fits : Fits P C) (inv : Inv core) :
    checkInvariants core = .ok () := by
  unfold checkInvariants
  rw [forM_ok.2 fun p _ => inv.checkPort_ok p]
  exact forM_ok.2 fun c _ => inv.checkConnection_ok fits.ports.2 fits.connections.2 c

/-- **The core is consistent.** After every run from a fresh core, with any capability table:
the engine's checker accepts the core; every queued request belongs to an open connection of its
port; every connection in use, and so every notice, is bound to a live port of the generation it
names, except for one whose port was torn down, which no live port serves; the counts of ports and
connections are the numbers of occupied slots; and unless a sequence counter has wrapped, the
numbers in each queue are distinct, below the counter and in the order in which they were drawn. -/
theorem portCore_consistent [DecidableEq B] {core : PortCore P C B} (h : PortCore.new = some core)
    (table : CapabilityTable N) (ops : List (PortOp B)) :
    let core' := (run portStep ⟨core, table⟩ ops).core
    checkInvariants core' = .ok () ∧
    (∀ p entry, ((core'.ports p).requests entry).isLive = true → ∃ c, OpenOn core' p c ∧
      ((core'.ports p).requests entry).connection = core'.connectionId c) ∧
    (∀ c, (core'.connections c).state ≠ .free → (core'.connections c).state ≠ .serverGone →
      ∃ p, (core'.ports p).live = true ∧ (core'.connections c).port = core'.key p) ∧
    (∀ c, (core'.connections c).state = .serverGone →
      core'.portIndex (core'.connections c).port = none) ∧
    (globalCounts core').ports = (Finset.univ.filter fun p => (core'.ports p).live = true).card ∧
    (globalCounts core').connections =
      (Finset.univ.filter fun c => (core'.connections c).state ≠ .free).card ∧
    ((∀ e ∈ trace portStep ⟨core, table⟩ ops, NoWrap e) → Ordered core') := by
  intro core'
  have fits := (new_eq h).1
  have inv : Inv core' := run_inv h table ops
  refine ⟨inv.checkInvariants_ok fits, inv.owner, inv.bound, fun c hgn => ?_,
    Slots.count_eq_card .., ?_, run_ordered h table ops⟩
  · cases hin : core'.portIndex (core'.connections c).port with
    | none => rfl
    | some p =>
      obtain ⟨hlv, hpr⟩ := (portIndex_eq_some fits.ports.2).1 hin
      exact absurd hpr (inv.gone c hgn p hlv)
  · unfold globalCounts
    simp only [Slots.count_eq_card, decide_eq_true_eq]

theorem portCore_consistent_pendingSession :
    let core := (run portStep soleStart pendingSession).core
    (core.ports 0).queuedRequests = 1 ∧ checkInvariants core = .ok () ∧ Ordered core :=
  have h := portCore_consistent soleStart_new soleStart.table pendingSession
  ⟨by decide +kernel, h.1, h.2.2.2.2.2.2 (by decide +kernel)⟩

/-- A torn-down port leaves its connections to a port that no longer exists, and a counter that
wraps leaves a queue whose numbers do not increase. -/
theorem portCore_inconsistent :
    (∃ ops, ∃ c, ((run portStep soleStart ops).core.connections c).state ≠ .free ∧
      (run portStep soleStart ops).core.portIndex
        ((run portStep soleStart ops).core.connections c).port = none) ∧
    (∃ ops, ∃ c, ¬(((run portStep soleStart ops).core.connections c).events.toList.Pairwise
      fun a b => a.seq < b.seq)) := by
  constructor
  · exact ⟨openSession ++ [.unregister ⟨0, 1⟩], 0, by decide +kernel⟩
  · obtain ⟨ops, hops⟩ := spinning_reached (n := 2 ^ 64 - 2) (by decide)
    refine ⟨ops ++ [.post soleServer soleServe soleConnection zeroFrame,
      .post soleServer soleServe soleConnection zeroFrame], 0, ?_⟩
    rw [run_append, hops]
    decide +kernel

end CleanSlate.ServicePort
