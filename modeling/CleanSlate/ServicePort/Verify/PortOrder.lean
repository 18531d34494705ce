import CleanSlate.ServicePort.Verify.Delivery

/-!
# The order of delivery across a port

Requests are delivered in the order of their kernel numbers, unless the counter of the port wraps:
what was delivered stays below what is queued and what will be drawn (`InOrder`).
-/

namespace CleanSlate.ServicePort

open Lib PortCore
open Function (update update_self update_of_ne update_apply)
open Capability

variable {P C N : Nat} {B : Type}

/-- What a move does to the queue of a port that is live after it. -/
inductive PortFlow (core core' : PortCore P C B) (obs : Observation) (q : Fin P) : Prop
  | registered (key : obs = .registered (core'.key q)) (fresh : Unregistered core (core'.key q))
      (empty : ∀ entry, ((core'.ports q).requests entry).isLive = false)
  | stayed (live : (core.ports q).live) (key : core'.key q = core.key q)
      (requests : ∀ entry, ((core'.ports q).requests entry).isLive →
        (core'.ports q).requests entry = (core.ports q).requests entry ∨
          (∃ id message, obs = .sent id message) ∧
            ((core'.ports q).requests entry).seq = (core.ports q).nextSeq)
      (delivered : ∀ seq, obs.deliveredAt (core.key q) = some seq → ∃ entry,
        ((core.ports q).requests entry).isLive ∧
        ((core.ports q).requests entry).seq = seq ∧
        (∀ other, ((core.ports q).requests other).isLive →
          seq ≤ ((core.ports q).requests other).seq) ∧
        ((core'.ports q).requests entry).isLive = false)

variable {core : PortCore P C B} {q : Fin P} {obs : Observation} {core' : PortCore P C B}
  {p : Fin P} {key : PortKey} {effects : List (Effect B)}

theorem Move.portFlow (hP : P ≤ 255) (hC : C ≤ 65535) (move : Move core obs effects core')
    (inv : Inv core) (h : (core'.ports q).live) : PortFlow core core' obs q := by
  have hpr := move.atPort hP hC inv q
  cases hpr.stays hP inv h with
  | registered key fresh nextSeq empty => exact .registered key fresh empty
  | stayed live generation nextSeq new requests =>
    refine .stayed live (key_congr generation) (fun entry hen => (requests entry hen).imp_right
      fun ⟨_, hseq, _, hobs⟩ => ⟨hobs, hseq⟩) fun seq hobs => ?_
    generalize core'.ports q = port at hpr
    cases hpr with
    | kept silent undelivered =>
      rw [undelivered] at hobs
      cases hobs
    | @taken c entry on queued connection least =>
      obtain ⟨-, -, hseq⟩ := Observation.deliveredAt_eq_some hobs
      refine ⟨entry, queued, hseq, fun other hot => hseq ▸ least other hot, ?_⟩
      dsimp only
      rw [update_self]
      rfl
    | purged on ended silent undelivered =>
      rw [undelivered] at hobs
      cases hobs
    | _ => cases hobs

theorem Steps.portFlow [DecidableEq B] (fits : Fits P C)
    (steps : Steps core obs effects core') (inv : Inv core) (h : (core'.ports q).live) :
    PortFlow core core' obs q := by
  refine steps.shows fits (fun hlv => .stayed hlv rfl (fun _ _ => .inl rfl)
      fun _ hobs => by cases hobs) (fun first second hlv => ?_)
    (fun inv move => move.portFlow fits.ports.2 fits.connections.2 inv) inv h
  -- silent moves register no port and queue no request
  cases second hlv with
  | registered key => cases key
  | stayed hmid hkey hrq =>
    cases first hmid with
    | registered key => cases key
    | stayed live key requests =>
      refine .stayed live (hkey.trans key) (fun entry hen => ?_) fun _ hobs => by cases hobs
      rcases hrq entry hen with heq | ⟨⟨_, _, hobs⟩, -⟩
      · rw [heq] at hen ⊢
        exact requests entry hen
      · cases hobs

theorem Move.portGeneration_le (hP : P ≤ 255) (hC : C ≤ 65535)
    (move : Move core obs effects core') (inv : Inv core) (q : Fin P) :
    (core.ports q).generation.toNat ≤ (core'.ports q).generation.toNat := by
  have hpr := move.atPort hP hC inv q
  generalize core'.ports q = port at hpr
  cases hpr with
  | registered dead generation =>
    change _ ≤ ((core.ports q).generation + 1).toNat
    rw [Generation.toNat_add_one generation]
    exact Nat.le_succ _
  | _ => exact le_rfl

theorem Steps.unregistered [DecidableEq B] (fits : Fits P C)
    (steps : Steps core obs effects core') (inv : Inv core) (h : Unregistered core' key) :
    Unregistered core key := by
  intro p hp
  refine Nat.lt_of_le_of_lt ?_ (h p hp)
  exact steps.shows fits le_rfl Nat.le_trans
    (fun inv move => move.portGeneration_le fits.ports.2 fits.connections.2 inv p) inv

theorem Steps.deliveredAt_live [DecidableEq B] (hC : C ≤ 65535)
    (steps : Steps core obs effects core') (inv : Inv core) {seq : Nat}
    (h : obs.deliveredAt key = some seq) : ∃ p, core.key p = key ∧ (core'.ports p).live := by
  cases steps with
  | path => cases h
  | move move =>
    cases move with
    | @deliver p entry live queued least =>
      obtain ⟨hkey, -⟩ := Observation.deliveredAt_eq_some h
      obtain ⟨c, on, hid⟩ := inv.owner p entry queued
      refine ⟨p, hkey, ?_⟩
      rw [takeRequest_eq hC inv on hid, write_ports, update_self]
      exact live
    | @takeNotice p c live notice =>
      obtain ⟨hkey, -⟩ := Observation.deliveredAt_eq_some h
      exact ⟨p, hkey, live⟩
    | _ => cases h

/-- The numbers delivered so far by the port `key` are below what is queued and what it will
draw. -/
structure InOrder (hist : List Observation) (core : PortCore P C B) (key : PortKey) : Prop where
  fresh : Unregistered core key → hist.filterMap (Observation.deliveredAt key) = []
  below : ∀ p, (core.ports p).live → core.key p = key →
    ∀ seq ∈ hist.filterMap (Observation.deliveredAt key), seq < (core.ports p).nextSeq ∧
      ∀ entry, ((core.ports p).requests entry).isLive → seq < ((core.ports p).requests entry).seq
  increasing : (hist.filterMap (Observation.deliveredAt key)).Pairwise (· < ·)

theorem InOrder.next [DecidableEq B] (fits : Fits P C)
    (steps : Steps core obs effects core') (inv : Inv core) (ordered : Ordered core)
    (noWrap : ∀ p, core'.key p = core.key p →
      (core.ports p).nextSeq ≤ (core'.ports p).nextSeq) {hist : List Observation}
    (h : InOrder hist core key) : InOrder (hist ++ [obs]) core' key := by
  have hP := fits.ports.2
  have hC := fits.connections.2
  refine ⟨fun hfr => ?_, fun p hlv hkey seq hseq => ?_, ?_⟩
  · have hbf := steps.unregistered fits inv hfr
    rw [filterMap_snoc, h.fresh hbf]
    cases hobs : obs.deliveredAt key with
    | none => rfl
    | some seq =>
      obtain ⟨p, rfl, -⟩ := steps.deliveredAt_live hC inv hobs
      exact absurd hbf (not_unregistered hP p)
  · rw [filterMap_snoc, List.mem_append, Option.mem_toList] at hseq
    cases steps.portFlow fits inv hlv with
    | registered registered fresh empty =>
      rw [hkey] at fresh
      rw [registered, h.fresh fresh] at hseq
      rcases hseq with hseq | hseq <;> cases hseq
    | stayed live hsm requests delivered =>
      have hmn := noWrap p hsm
      rw [hkey] at hsm
      -- a delivered number is below the counter and below every number still queued
      have hbl : seq < (core.ports p).nextSeq ∧ ∀ entry, ((core.ports p).requests entry).isLive →
          ((core'.ports p).requests entry).isLive →
          seq < ((core.ports p).requests entry).seq := by
        rcases hseq with hseq | hseq
        · obtain ⟨hnx, hqu⟩ := h.below p live hsm.symm seq hseq
          exact ⟨hnx, fun entry hen _ => hqu entry hen⟩
        rw [hsm] at hseq
        obtain ⟨entry, hen, rfl, hls, hgn⟩ := delivered seq hseq
        refine ⟨(ordered p live).requests entry hen, fun other hot hst => ?_⟩
        refine Nat.lt_of_le_of_ne (hls other hot) fun heq => ?_
        obtain rfl := (ordered p live).distinct entry other hen hot heq
        rw [hgn] at hst
        cases hst
      refine ⟨Nat.lt_of_lt_of_le hbl.1 hmn, fun entry hen => ?_⟩
      rcases requests entry hen with heq | ⟨-, hdr⟩
      · rw [heq]
        exact hbl.2 entry (by rw [← heq]; exact hen) hen
      · rw [hdr]
        exact hbl.1
  · rw [filterMap_snoc]
    cases hobs : obs.deliveredAt key with
    | none => simpa using h.increasing
    | some seq =>
      refine List.pairwise_append.2 ⟨h.increasing, List.pairwise_singleton .., fun a ha b hb => ?_⟩
      obtain rfl := List.mem_singleton.1 hb
      obtain ⟨p, rfl, hlv⟩ := steps.deliveredAt_live hC inv hobs
      cases steps.portFlow fits inv hlv with
      | registered registered => rw [registered] at hobs; cases hobs
      | stayed live hsm requests delivered =>
        obtain ⟨entry, hen, rfl, -⟩ := delivered b hobs
        exact (h.below p live rfl a ha).2 entry hen

end CleanSlate.ServicePort
