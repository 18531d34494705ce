import CleanSlate.ServicePort.Verify.Invariant

/-!
# Every move keeps the structural invariant

One lemma for each move of the core, and from them the invariant of every run (`run_inv`).
-/

namespace CleanSlate.ServicePort

open Lib PortCore Slots Request
open Function (update update_self update_of_ne update_apply)
open Capability

variable {P C N : Nat} {B : Type} {events : Ring QueuedEvent portMaxEventQueueDepth} {port : Port B}
  {seqs : Fin C → Nat} {obs : Observation} {core : PortCore P C B} {c : Fin C} {p q : Fin P}
  {conn : Connection} {key : PortKey} {seq : Nat} {entry : Fin portMaxRequestQueueDepth}
  {core' : PortCore P C B} {effects : List (Effect B)}

section Moves
variable {core : PortCore P C B}

theorem Inv.freeConnection (inv : Inv core) (h : (core.connections c).state ≠ .open) :
    Inv (freeConnection core c) := by
  obtain ⟨hout, htr⟩ := (inv.connections c).idle h
  refine inv.setConnection ⟨rfl, .of_free rfl rfl rfl,
    Or.inl ⟨rfl, h⟩, hout.symm, htr.symm, Nat.zero_le _⟩

theorem Inv.takeEvent (inv : Inv core) {event : QueuedEvent}
    (hpop : (core.connections c).events.pop = some (event, events)) :
    Inv (setEvents core c events) := by
  have hcn := inv.connections c
  refine inv.setConnection ⟨rfl, ⟨hcn.generation, hcn.idle, hcn.notice⟩, Or.inr ⟨rfl, rfl⟩, rfl,
    rfl, ?_⟩
  rcases Ring.pop_eq (core.connections c).events with ⟨h, -⟩ | ⟨a, r, h, -, hlen⟩
  · rw [hpop] at h
    cases h
  · rw [hpop] at h
    cases h
    change events.len ≤ _
    omega

theorem Inv.bind (inv : Inv core) (p : Fin P) (wake : WakeBinding B) :
    Inv (core.setPort p ((core.ports p).bind wake)) := by
  -- nothing in the invariant reads the wake bindings
  have hwk : core.setPort p ((core.ports p).bind wake) = ⟨fun q => { core.ports q with
      wake := if q = p then some wake else (core.ports q).wake }, core.connections⟩ := by
    refine congrArg (PortCore.mk · core.connections) (funext fun q => ?_)
    rw [update_apply]
    split
    · next hq => rw [hq]; rfl
    · rfl
  rw [hwk]
  refine ⟨fun q => ?_, inv.connections, fun q entry h => ?_, fun q c h => ?_, inv.depth, inv.bound,
    inv.registered, inv.gone⟩
  · have hwf := inv.ports q
    exact ⟨hwf.params, hwf.nextSeq, hwf.dead, hwf.depth, hwf.transfers, hwf.maxTransfers⟩
  · obtain ⟨c, hc, hid⟩ := inv.owner q entry h
    exact ⟨c, ⟨hc.live, hc.state, hc.port⟩, hid⟩
  · have hcn := inv.counted q c ⟨h.live, h.state, h.port⟩
    exact ⟨hcn.outstanding, hcn.transfers, hcn.maxOutstanding, hcn.maxTransfers⟩

/-- No queued request belongs to a connection that is not open. -/
theorem Inv.no_requests (hC : C ≤ 65535) (inv : Inv core) {id : ConnectionId}
    (hsl : id.slot.toNat = c.val) (hop : (core.connections c).state ≠ .open) (p : Fin P)
    (entry : Fin portMaxRequestQueueDepth) : ((core.ports p).requests entry).heldBy id = false := by
  by_contra h
  obtain ⟨hlv, hid⟩ := heldBy_iff.1 (Bool.not_eq_false _ ▸ h)
  obtain ⟨d, hd, hdid⟩ := inv.owner p entry hlv
  have hds := connectionId_slot core hC (inv.generation hd)
  rw [← hdid, hid, hsl] at hds
  rw [Fin.ext hds] at hop
  exact hop hd.state

theorem Inv.connect (hC : C ≤ 65535) (inv : Inv core) (hlv : (core.ports p).live)
    (hfr : (core.connections c).state = .free)
    (hgen : (core.connections c).generation ≠ generationMax) (caller : Caller)
    (handle : CapabilityHandle) :
    Inv (core.setConnection c ((core.connections c).opened (core.key p) caller handle)) := by
  generalize hcn : (core.connections c).opened (core.key p) caller handle = conn
  have hnew : (core.setConnection c conn).connections c = conn := update_self ..
  have hold : ∀ d, d ≠ c → (core.setConnection c conn).connections d = core.connections d :=
    fun d hd => update_of_ne hd ..
  have hconnGen : conn.generation ≠ 0 := by
    rw [← hcn]
    exact Generation.add_one_ne_zero hgen
  obtain ⟨hst, hpr, hlen, hout, htr⟩ : conn.state = .open ∧ conn.port = core.key p ∧
      conn.events.len = 0 ∧ conn.outstanding = 0 ∧ conn.transfersInFlight = 0 := by
    rw [← hcn]
    exact ⟨rfl, rfl, rfl, rfl, rfl⟩
  have hne : (core.connections c).state ≠ .open := by rw [hfr]; simp
  -- an open connection is the new one or was open before
  have hop : ∀ q d, d ≠ c → (OpenOn (core.setConnection c conn) q d ↔ OpenOn core q d) :=
    fun q d hd => ⟨fun h => h.congr rfl rfl (hold d hd).symm, fun h => h.congr rfl rfl (hold d hd)⟩
  refine ⟨inv.ports, fun d => ?_, fun q entry h => ?_, fun q d h => ?_,
    fun q d hl hu hpt => ?_, fun d hu hg => ?_, fun d hu => ?_, fun d hg q hl => ?_⟩
  · by_cases hd : d = c
    · rw [hd, hnew]
      exact .of_open hst hconnGen
    · rw [hold d hd]
      exact inv.connections d
  · obtain ⟨d, hd, hid⟩ := inv.owner q entry h
    have hdc : d ≠ c := by
      rintro rfl
      exact hne hd.state
    exact ⟨d, (hop q d hdc).2 hd, hid.trans (connectionId_congr (by rw [hold d hdc])).symm⟩
  · by_cases hd : d = c
    · subst hd
      have hnn : ∀ entry, ((core.ports q).requests entry).heldBy
          ((core.setConnection d conn).connectionId d) = false :=
        inv.no_requests hC (connectionId_slot _ hC (by rw [hnew]; exact hconnGen)) hne q
      have hcr : ∀ entry, ((core.ports q).requests entry).carriedBy
          ((core.setConnection d conn).connectionId d) = false := fun entry => by
        unfold carriedBy
        rw [hnn entry, Bool.false_and]
      rw [hnew]
      refine ⟨hout.trans (count_eq_zero.2 hnn).symm, htr.trans (count_eq_zero.2 hcr).symm, ?_, ?_⟩
      · rw [hout]
        exact Nat.zero_le _
      · rw [htr]
        exact Nat.zero_le _
    · rw [hold d hd]
      have hid : (core.setConnection c conn).connectionId d = core.connectionId d :=
        connectionId_congr (by rw [hold d hd])
      rw [hid]
      exact inv.counted q d ((hop q d hd).1 h)
  · by_cases hd : d = c
    · rw [hd, hnew, hlen]
      exact Nat.zero_le _
    · rw [hold d hd] at hu hpt ⊢
      exact inv.depth q d hl hu hpt
  · by_cases hd : d = c
    · exact ⟨p, hlv, by rw [hd, hnew, hpr]; rfl⟩
    · rw [hold d hd] at hu hg ⊢
      exact inv.bound d hu hg
  · by_cases hd : d = c
    · exact ⟨p, by rw [hd, hnew, hpr]; rfl, by rw [hd, hnew, hpr]; exact le_rfl⟩
    · rw [hold d hd] at hu ⊢
      exact inv.registered d hu
  · by_cases hd : d = c
    · rw [hd, hnew, hst] at hg
      cases hg
    · rw [hold d hd] at hg ⊢
      exact inv.gone d hg q hl

/-- No connection in use names the key of the next registration in a slot. -/
theorem Inv.key_fresh (hP : P ≤ 255) (inv : Inv core)
    (hgen : (core.ports p).generation ≠ generationMax)
    (hpr : port.generation = (core.ports p).generation + 1)
    (hu : (core.connections c).state ≠ .free) :
    (core.connections c).port ≠ (core.setPort p port).key p := by
  intro heq
  obtain ⟨q, hsl, hle⟩ := inv.registered c hu
  rw [heq] at hsl hle
  have hqp : p = q := by
    apply Fin.ext
    rw [← key_slot (core.setPort p port) hP p, hsl]
    exact UInt8.toNat_ofNat_of_lt' (by have := q.isLt; simp only [UInt8.size]; omega)
  subst hqp
  have hkg : ((core.setPort p port).key p).generation = (core.ports p).generation + 1 := by
    unfold PortCore.key
    rw [setPort_ports, update_self, hpr]
  rw [hkg, Generation.toNat_add_one hgen] at hle
  omega

section

variable (hP : P ≤ 255) (inv : Inv core) (hdead : (core.ports p).live = false)
  (hgen : (core.ports p).generation ≠ generationMax)
include hP inv hdead hgen

/-- A registration opens no connection, and closes none. -/
theorem openOn_register (hpr : port.generation = (core.ports p).generation + 1) :
    OpenOn (core.setPort p port) q c ↔ q ≠ p ∧ OpenOn core q c := by
  have hold : ∀ q, q ≠ p → (core.setPort p port).ports q = core.ports q :=
    fun q hq => update_of_ne hq ..
  constructor
  · intro h
    have hq : q ≠ p := by
      rintro rfl
      have hst : (core.connections c).state = .open := h.state
      exact inv.key_fresh hP hgen hpr (by rw [hst]; simp) h.port
    exact ⟨hq, h.congr (by rw [hold q hq]) (key_congr (by rw [hold q hq])) rfl⟩
  · rintro ⟨hq, h⟩
    exact h.congr (by rw [hold q hq]) (key_congr (by rw [hold q hq])) rfl

theorem Inv.register {params : PortParams} (hvl : params.validate = .ok ())
    (resource : ResourceRef) (rights : PortRights) (server : HolderId) (serverGeneration : UInt64) :
    Inv (core.setPort p
      ((core.ports p).registered resource rights server serverGeneration params)) := by
  generalize hpr : (core.ports p).registered resource rights server serverGeneration params = port
  have hnew : (core.setPort p port).ports p = port := update_self ..
  have hold : ∀ q, q ≠ p → (core.setPort p port).ports q = core.ports q :=
    fun q hq => update_of_ne hq ..
  have hkey : ∀ q, q ≠ p → (core.setPort p port).key q = core.key q := fun q hq =>
    key_congr (by rw [hold q hq])
  have hpg : port.generation.toNat = (core.ports p).generation.toNat + 1 := by
    rw [← hpr]
    exact Generation.toNat_add_one hgen
  have hnn : ∀ entry, (port.requests entry).isLive = false := by
    rw [← hpr]
    exact (inv.ports p).dead hdead
  have hfr : ∀ c, (core.connections c).state ≠ .free →
      (core.connections c).port ≠ (core.setPort p port).key p :=
    fun c => inv.key_fresh hP hgen (by rw [← hpr]; rfl)
  have hop : ∀ q c, OpenOn (core.setPort p port) q c ↔ q ≠ p ∧ OpenOn core q c :=
    fun q c => openOn_register hP inv hdead hgen (by rw [← hpr]; rfl)
  refine ⟨fun q => ?_, inv.connections, fun q entry h => ?_, fun q c h => ?_,
    fun q c hl hu hpt => ?_, fun c hu hg => ?_, fun c hu => ?_, fun c hg q hl => ?_⟩
  · by_cases hq : q = p
    · rw [hq, hnew]
      have hzr : count carries port.requests = 0 := count_eq_zero.2
        fun entry => by simp [carries, hnn entry]
      have hqd : port.queuedRequests = 0 := count_eq_zero.2 hnn
      refine ⟨fun _ => by rw [← hpr]; exact hvl, fun _ => by rw [← hpr]; simp [Port.registered],
        fun _ => hnn, fun _ => by rw [hqd]; exact Nat.zero_le _, fun _ => ?_, fun _ => ?_⟩
      · rw [hzr, ← hpr]
        rfl
      · rw [← hpr]
        exact Nat.zero_le _
    · rw [hold q hq]
      exact inv.ports q
  · by_cases hq : q = p
    · rw [hq, hnew, hnn entry] at h
      cases h
    · rw [hold q hq] at h ⊢
      obtain ⟨c, hc, hid⟩ := inv.owner q entry h
      exact ⟨c, (hop q c).2 ⟨hq, hc⟩, hid⟩
  · obtain ⟨hq, hc⟩ := (hop q c).1 h
    rw [hold q hq]
    exact inv.counted q c hc
  · by_cases hq : q = p
    · rw [hq] at hpt
      exact absurd hpt (hfr c hu)
    · rw [hold q hq] at hl ⊢
      exact inv.depth q c hl hu (hpt.trans (hkey q hq))
  · obtain ⟨q, hl, hpt⟩ := inv.bound c hu hg
    have hq : q ≠ p := by
      rintro rfl
      rw [hdead] at hl
      cases hl
    exact ⟨q, by rw [hold q hq, hl], hpt.trans (hkey q hq).symm⟩
  · obtain ⟨q, hsl, hle⟩ := inv.registered c hu
    refine ⟨q, hsl, ?_⟩
    by_cases hq : q = p
    · rw [hq, hnew, hpg]
      rw [hq] at hle
      exact Nat.le_succ_of_le hle
    · rw [hold q hq]
      exact hle
  · have hu : (core.connections c).state ≠ .free := by
      rw [show (core.connections c).state = .serverGone from hg]
      simp
    by_cases hq : q = p
    · rw [hq]
      exact hfr c hu
    · rw [hold q hq] at hl
      rw [hkey q hq]
      exact inv.gone c hg q hl

end

/-! ## Teardown -/

theorem Connection.tornDown_generation (key : PortKey) (seq : Nat) (conn : Connection) :
    (conn.tornDown key seq).generation = conn.generation := by
  unfold Connection.tornDown
  split
  · rfl
  · split <;> rfl

/-- A connection after a teardown: severed from its server, freed, or not concerned. -/
theorem Connection.tornDown_cases (key : PortKey) (seq : Nat) (conn : Connection) :
    (conn.severed key ∧ conn.tornDown key seq = conn.ended .serverGone seq conn.events.clear) ∨
    (PortCore.notice key conn ∧ conn.tornDown key seq = conn.release) ∨
    (conn.severed key = false ∧ PortCore.notice key conn = false ∧
      conn.tornDown key seq = conn) := by
  unfold Connection.tornDown
  split
  · next h => exact .inl ⟨h, rfl⟩
  · next h =>
    split
    · next hn => exact .inr (.inl ⟨hn, rfl⟩)
    · next hn => exact .inr (.inr ⟨Bool.eq_false_iff.2 h, Bool.eq_false_iff.2 hn, rfl⟩)

theorem Connection.severed_port (h : conn.severed key) : conn.port = key := by
  unfold Connection.severed at h
  simp only [Bool.and_eq_true, decide_eq_true_eq] at h
  exact h.1

theorem Connection.severed_used (h : conn.severed key) : conn.state ≠ .free := by
  intro hfr
  simp [Connection.severed, hfr] at h

/-- What a torn-down connection that is still in use looks like. -/
theorem Connection.tornDown_used (h : (conn.tornDown key seq).state ≠ .free) :
    conn.state ≠ .free ∧ (conn.tornDown key seq).port = conn.port ∧
      ((conn.tornDown key seq).state = .serverGone ∧ conn.severed key ∧
          (conn.tornDown key seq).events.len = 0 ∨
        conn.tornDown key seq = conn ∧ conn.severed key = false) := by
  rcases conn.tornDown_cases key seq with ⟨hs, he⟩ | ⟨-, he⟩ | ⟨hs, -, he⟩
  · rw [he]
    exact ⟨severed_used hs, rfl, .inl ⟨rfl, hs, rfl⟩⟩
  · rw [he] at h
    exact absurd rfl h
  · rw [he] at h ⊢
    exact ⟨h, rfl, .inr ⟨rfl, hs⟩⟩

section

variable (core : PortCore P C B)

theorem PortCore.tornDown_connectionId (p : Fin P) (seqs : Fin C → Nat) (seq : Nat) (c : Fin C) :
    (core.tornDown p seqs seq).connectionId c = core.connectionId c :=
  connectionId_congr (Connection.tornDown_generation ..)

theorem PortCore.tornDown_ports_of_ne (h : q ≠ p) (seqs : Fin C → Nat)
    (seq : Nat) : (core.tornDown p seqs seq).ports q = core.ports q :=
  update_of_ne h ..

theorem PortCore.tornDown_ports_self (p : Fin P) (seqs : Fin C → Nat)
    (seq : Nat) : (core.tornDown p seqs seq).ports p = (core.ports p).tornDown seq :=
  update_self ..

theorem PortCore.tornDown_key (p : Fin P) (seqs : Fin C → Nat)
    (seq : Nat) (q : Fin P) : (core.tornDown p seqs seq).key q = core.key q := by
  apply key_congr
  by_cases h : q = p
  · rw [h, tornDown_ports_self]
    rfl
  · rw [tornDown_ports_of_ne core h]

end

/-- A torn-down port is dead; the others are as they were. -/
theorem PortCore.tornDown_live (h : ((core.tornDown p seqs seq).ports q).live) :
    q ≠ p ∧ (core.ports q).live := by
  have hq : q ≠ p := by
    rintro rfl
    rw [tornDown_ports_self] at h
    cases h
  rw [tornDown_ports_of_ne core hq] at h
  exact ⟨hq, h⟩

/-- The open connections after a teardown are those of the other ports. -/
theorem openOn_tornDown : OpenOn (core.tornDown p seqs seq) q c ↔
      q ≠ p ∧ OpenOn core q c ∧ (core.tornDown p seqs seq).connections c = core.connections c := by
  constructor
  · intro h
    obtain ⟨hq, hlv⟩ := tornDown_live h.live
    have hst : ((core.connections c).tornDown (core.key p) (seqs c)).state = .open := h.state
    obtain ⟨-, -, ⟨hgn, -⟩ | ⟨hsm, -⟩⟩ := Connection.tornDown_used (by rw [hst]; simp)
    · rw [hst] at hgn
      cases hgn
    · exact ⟨hq, h.congr (by rw [tornDown_ports_of_ne core hq])
        (tornDown_key core p seqs seq q).symm hsm.symm, hsm⟩
  · rintro ⟨hq, h, hsm⟩
    exact h.congr (by rw [tornDown_ports_of_ne core hq]) (tornDown_key core p seqs seq q) hsm

theorem tornDown_of_openOn (hP : P ≤ 255) (hq : q ≠ p) (h : OpenOn core q c) (seqs : Fin C → Nat)
    (seq : Nat) : (core.tornDown p seqs seq).connections c = core.connections c := by
  have hne : (core.connections c).port ≠ core.key p := by
    rw [h.port]
    exact fun heq => hq (key_inj hP heq)
  rcases (core.connections c).tornDown_cases (core.key p) (seqs c) with ⟨hs, -⟩ | ⟨hn, -⟩ |
    ⟨-, -, he⟩
  · exact absurd (Connection.severed_port hs) hne
  · simp only [notice, decide_eq_true_eq] at hn
    exact absurd hn.1 hne
  · exact he

theorem Connection.WellFormed.tornDown (h : conn.WellFormed) (key : PortKey) (seq : Nat) :
    (conn.tornDown key seq).WellFormed := by
  rcases conn.tornDown_cases key seq with ⟨hs, he⟩ | ⟨-, he⟩ | ⟨-, -, he⟩
  · rw [he]
    exact ⟨fun _ => h.generation (Connection.severed_used hs), fun _ => ⟨rfl, rfl⟩,
      fun _ _ hn => (nomatch hn)⟩
  · rw [he]
    exact .of_free rfl rfl rfl
  · rw [he]
    exact h

theorem Inv.teardown (hP : P ≤ 255) (inv : Inv core) (seqs : Fin C → Nat) (seq : Nat) :
    Inv (core.tornDown p seqs seq) where
  ports q := by
    by_cases hq : q = p
    · rw [hq, tornDown_ports_self]
      exact .of_dead rfl fun _ => rfl
    · rw [tornDown_ports_of_ne core hq]
      exact inv.ports q
  connections c := (inv.connections c).tornDown ..
  owner q entry h := by
    have hq : q ≠ p := by
      rintro rfl
      rw [tornDown_ports_self] at h
      cases h
    rw [tornDown_ports_of_ne core hq] at h ⊢
    obtain ⟨c, hc, hid⟩ := inv.owner q entry h
    exact ⟨c, openOn_tornDown.2 ⟨hq, hc, tornDown_of_openOn hP hq hc seqs seq⟩,
      hid.trans (tornDown_connectionId core p seqs seq c).symm⟩
  counted q c h := by
    obtain ⟨hq, hc, hsm⟩ := openOn_tornDown.1 h
    rw [tornDown_ports_of_ne core hq, tornDown_connectionId, hsm]
    exact inv.counted q c hc
  depth q c hl hu hpr := by
    obtain ⟨hq, hql⟩ := tornDown_live hl
    obtain ⟨hus, hsm, ⟨-, -, hlen⟩ | ⟨he, -⟩⟩ := Connection.tornDown_used hu
    · exact Nat.le_trans (Nat.le_of_eq hlen) (Nat.zero_le _)
    rw [tornDown_key] at hpr
    rw [tornDown_ports_of_ne core hq]
    change ((core.connections c).tornDown _ _).events.len ≤ _
    rw [he]
    exact inv.depth q c hql hus (hsm ▸ hpr)
  bound c hu hg := by
    obtain ⟨hus, hsm, ⟨hgn, -, -⟩ | ⟨he, hs⟩⟩ := Connection.tornDown_used hu
    · exact absurd hgn hg
    have hst : ((core.tornDown p seqs seq).connections c).state =
        (core.connections c).state := congrArg Connection.state he
    rw [hst] at hu hg
    obtain ⟨q, hl, hpr⟩ := inv.bound c hu hg
    refine ⟨q, ?_, ?_⟩
    · have hq : q ≠ p := by
        rintro rfl
        -- a connection of the torn-down port in any other state was freed
        rcases (core.connections c).tornDown_cases (core.key q) (seqs c) with ⟨h, -⟩ | ⟨-, h⟩ |
          ⟨-, hn, -⟩
        · rw [h] at hs
          cases hs
        · rw [he] at h
          exact hu (congrArg Connection.state h)
        have hss : (core.connections c).state ≠ .open ∧
            (∀ r, (core.connections c).state ≠ .serverClosed r) := by
          constructor <;> intros <;> intro h <;> simp [Connection.severed, hpr, h] at hs
        cases hc : (core.connections c).state with
        | free => exact hu hc
        | «open» => exact hss.1 hc
        | closePending k r => simp [notice, hpr, hc, ConnState.isClosePending] at hn
        | serverClosed r => exact hss.2 r hc
        | serverGone => exact hg hc
      rw [tornDown_ports_of_ne core hq, hl]
    · rw [tornDown_key]
      exact hsm.trans hpr
  registered c hu := by
    obtain ⟨hus, hsm, -⟩ := Connection.tornDown_used hu
    obtain ⟨q, hsl, hle⟩ := inv.registered c hus
    refine ⟨q, (congrArg PortKey.slot hsm).trans hsl, ?_⟩
    have hgen : ((core.tornDown p seqs seq).ports q).generation = (core.ports q).generation :=
      congrArg PortKey.generation (tornDown_key core p seqs seq q)
    rw [hgen]
    exact (congrArg (fun k => k.generation.toNat) hsm).trans_le hle
  gone c hg q hl := by
    obtain ⟨hq, hql⟩ := tornDown_live hl
    rw [tornDown_key]
    have hg' : ((core.connections c).tornDown (core.key p) (seqs c)).state = .serverGone := hg
    obtain ⟨-, hsm, ⟨-, hs, -⟩ | ⟨he, -⟩⟩ := Connection.tornDown_used (by rw [hg']; simp)
    · rw [show ((core.tornDown p seqs seq).connections c).port = (core.connections c).port
        from hsm, Connection.severed_port hs]
      exact fun heq => hq (key_inj hP heq).symm
    · rw [show ((core.tornDown p seqs seq).connections c).port = (core.connections c).port from hsm]
      exact inv.gone c (by rw [← he]; exact hg) q hql

/-! ## Queueing, delivering, posting and ending -/

theorem seqAfter_ne_zero (seq : Nat) : seqAfter seq ≠ 0 := by
  unfold seqAfter
  omega

theorem Request.carries_eq (request : Request) :
    request.carries = (request.isLive && request.transfer.isSome) := rfl

theorem Inv.enqueue (hP : P ≤ 255) (hC : C ≤ 65535) (inv : Inv core) {request : Request}
    (on : OpenOn core p c) (hcap : overCapacity core p c request.transfer.isSome = false)
    (hfr : ((core.ports p).requests entry).isLive = false)
    (hseq : request.seq = (core.ports p).nextSeq) (hid : request.connection = core.connectionId c) :
    Inv (ServicePort.enqueue core p c entry request) := by
  have hwf := inv.ports p
  have hcn := inv.counted p c on
  have hlv : request.isLive := by
    simp [isLive, hseq, hwf.nextSeq on.live]
  simp only [overCapacity, decide_eq_false_iff_not, not_or, not_and, not_le] at hcap
  obtain ⟨hout, hqd, htr⟩ := hcap
  have hold : ∀ id, ((core.ports p).requests entry).heldBy id = false := fun id => by
    simp [heldBy, hfr]
  have hhl : count (heldBy (core.connectionId c)) (update (core.ports p).requests entry request) =
      count (heldBy (core.connectionId c)) (core.ports p).requests + 1 := by
    rw [count_update_of_not (hold _), if_pos (heldBy_iff.2 ⟨hlv, hid⟩)]
  have hcr : count (carriedBy (core.connectionId c))
      (update (core.ports p).requests entry request) =
      count (carriedBy (core.connectionId c)) (core.ports p).requests +
        if request.transfer.isSome then 1 else 0 := by
    rw [count_update_of_not (by simp [carriedBy, hold])]
    simp [carriedBy, heldBy, hlv, hid]
  have hcs : count carries (update (core.ports p).requests entry request) =
      count carries (core.ports p).requests + if request.transfer.isSome then 1 else 0 := by
    rw [count_update_of_not (by simp [carries, hfr])]
    simp [carries, hlv]
  have hdp : count isLive (update (core.ports p).requests entry request) =
      (core.ports p).queuedRequests + 1 := by
    rw [count_update_of_not hfr, if_pos hlv]
    rfl
  refine inv.write hP hC on
    { generation := rfl, live := on.live, params := rfl, connGeneration := rfl,
      connPort := on.port, depth := inv.depth p c on.live on.used on.port,
      inUse := ⟨by simp [on.state], by simp [on.state]⟩,
      wellFormed := ⟨hwf.params, fun _ => seqAfter_ne_zero _,
        fun hdead => absurd (on.live.symm.trans hdead) (by simp), fun _ => hdp.trans_le hqd,
        fun _ => ?_, fun _ => ?_⟩,
      connWellFormed := .of_open on.state (inv.generation on),
      others := fun id hne => ⟨?_, ?_⟩, counted := fun _ => ⟨?_, ?_, hout, ?_⟩,
      purged := fun h => absurd on.state h }
  · rw [hcs, ← hwf.transfers on.live]
  · have hmax := hwf.maxTransfers on.live
    split
    · next h => exact (htr h).2
    · exact hmax
  · rw [count_update_of_not (hold id)]
    simp [heldBy, hid, Ne.symm hne]
  · rw [count_update_of_not (by simp [carriedBy, hold])]
    simp [carriedBy, heldBy, hid, Ne.symm hne]
  · rw [hhl, ← hcn.outstanding]
  · rw [hcr, ← hcn.transfers]
  · have hmax := hcn.maxTransfers
    split
    · next h => exact (htr h).1
    · exact hmax

/-- The owner of a queued request is in place when it is delivered. -/
theorem takeRequest_eq (hC : C ≤ 65535) (inv : Inv core) (on : OpenOn core p c)
    (hid : ((core.ports p).requests entry).connection = core.connectionId c) :
    takeRequest core p entry = core.write p c { core.ports p with
        requests := update (core.ports p).requests entry .empty
        transfersInFlight := (core.ports p).transfersInFlight -
          if ((core.ports p).requests entry).transfer.isSome then 1 else 0 }
      { core.connections c with
        outstanding := (core.connections c).outstanding - 1
        transfersInFlight := (core.connections c).transfersInFlight -
          if ((core.ports p).requests entry).transfer.isSome then 1 else 0 } := by
  have hgen := inv.generation on
  obtain ⟨hlt, hc⟩ := connectionId_index core hC hgen
  unfold takeRequest
  simp only [hid, dif_pos hlt, hc, setPort_connections, connectionId_generation core hgen]
  rfl

theorem Inv.deliver (hP : P ≤ 255) (hC : C ≤ 65535) (inv : Inv core)
    (hqd : ((core.ports p).requests entry).isLive) : Inv (takeRequest core p entry) := by
  obtain ⟨c, on, hid⟩ := inv.owner p entry hqd
  have hwf := inv.ports p
  have hcn := inv.counted p c on
  have hnn : ∀ id, Request.empty.heldBy id = false := fun id => rfl
  have hhl := count_update_drop (p := heldBy (core.connectionId c)) (hnn _)
    (core.ports p).requests entry
  have hcr := count_update_drop (p := carriedBy (core.connectionId c))
    (a := Request.empty) rfl (core.ports p).requests entry
  have hcs := count_update_drop (p := carries) (a := Request.empty) rfl
    (core.ports p).requests entry
  rw [if_pos (heldBy_iff.2 ⟨hqd, hid⟩)] at hhl
  simp only [carriedBy, heldBy, hqd, hid] at hcr
  simp only [carries_eq, hqd] at hcs
  rw [takeRequest_eq hC inv on hid]
  refine inv.write hP hC on
    { generation := rfl, live := on.live, params := rfl, connGeneration := rfl,
      connPort := on.port, depth := inv.depth p c on.live on.used on.port,
      inUse := ⟨by simp [on.state], by simp [on.state]⟩,
      wellFormed := ⟨hwf.params, hwf.nextSeq,
        fun hdead => absurd (on.live.symm.trans hdead) (by simp), fun _ => ?_,
        fun _ => ?_, fun h => Nat.le_trans (Nat.sub_le _ _) (hwf.maxTransfers h)⟩,
      connWellFormed := .of_open on.state (inv.generation on),
      others := fun id hne => ⟨?_, ?_⟩,
      counted := fun _ => ⟨?_, ?_, Nat.le_trans (Nat.sub_le _ _) hcn.maxOutstanding,
        Nat.le_trans (Nat.sub_le _ _) hcn.maxTransfers⟩,
      purged := fun h => absurd on.state h }
  · have hdr := count_update_drop (p := isLive) (a := Request.empty) rfl
      (core.ports p).requests entry
    exact Nat.le_trans (Nat.le_of_add_right_le (Nat.le_of_eq hdr)) (hwf.depth on.live)
  · exact Nat.sub_eq_of_eq_add ((hwf.transfers on.live).trans hcs.symm)
  · have hdr := count_update_drop (hnn id) (core.ports p).requests entry
    rw [if_neg (by simp [heldBy, hid, Ne.symm hne])] at hdr
    exact hdr
  · have hdr := count_update_drop (p := carriedBy id) (a := Request.empty) rfl
      (core.ports p).requests entry
    rw [if_neg (by simp [carriedBy, heldBy, hid, Ne.symm hne])] at hdr
    exact hdr
  · exact Nat.sub_eq_of_eq_add (hcn.outstanding.trans hhl.symm)
  · exact Nat.sub_eq_of_eq_add (hcn.transfers.trans hcr.symm)

theorem Inv.post (hP : P ≤ 255) (hC : C ≤ 65535) (inv : Inv core) (on : OpenOn core p c)
    (hrm : (core.connections c).events.len < (core.ports p).params.eventDepth) (frame : Frame) :
    Inv (postEvent core p c frame) := by
  have hwf := inv.ports p
  have hcn := inv.counted p c on
  exact inv.write hP hC on
    { generation := rfl, live := on.live, params := rfl, connGeneration := rfl,
      connPort := on.port, depth := hrm, inUse := ⟨by simp [on.state], by simp [on.state]⟩,
      wellFormed := ⟨hwf.params, fun _ => seqAfter_ne_zero _, hwf.dead, hwf.depth, hwf.transfers,
        hwf.maxTransfers⟩,
      connWellFormed := .of_open on.state (inv.generation on),
      others := fun _ _ => ⟨rfl, rfl⟩,
      counted := fun _ => ⟨hcn.outstanding, hcn.transfers, hcn.maxOutstanding, hcn.maxTransfers⟩,
      purged := fun h => absurd on.state h }

theorem Port.purged_requests (port : Port B) (id : ConnectionId)
    (entry : Fin portMaxRequestQueueDepth) :
    (port.purged id).requests entry =
      if (port.requests entry).heldBy id then .empty else port.requests entry := rfl

/-- A purge takes the connection's capabilities out of the port's count. -/
theorem Port.purged_carries (port : Port B) (id : ConnectionId) :
    count carries (port.purged id).requests + count (carriedBy id) port.requests =
      count carries port.requests := by
  refine count_add fun entry => ?_
  rw [Port.purged_requests]
  by_cases h : (port.requests entry).heldBy id
  · have hlv := (heldBy_iff.1 h).1
    simp [h, carries, carriedBy, hlv]
  · simp [h, carriedBy]

theorem Inv.endConnection (hP : P ≤ 255) (hC : C ≤ 65535) (inv : Inv core) (on : OpenOn core p c)
    {state : ConnState} (hst : (∃ reason, state = .serverClosed reason) ∨
      ∃ kind reason, kind ≠ .request ∧ state = .closePending kind reason)
    (hev : events.len ≤ (core.connections c).events.len) :
    Inv (core.endConnection p c state events) := by
  have hwf := inv.ports p
  have hne : state ≠ .open ∧ state ≠ .free ∧ state ≠ .serverGone := by
    rcases hst with ⟨reason, rfl⟩ | ⟨kind, reason, -, rfl⟩ <;> simp
  refine inv.write hP hC on
    { generation := rfl, live := on.live, params := rfl, connGeneration := rfl,
      connPort := on.port, inUse := hne.2,
      depth := Nat.le_trans hev (inv.depth p c on.live on.used on.port),
      wellFormed := ⟨hwf.params, fun _ => seqAfter_ne_zero _,
        fun hdead => absurd (on.live.symm.trans hdead) (by simp),
        fun _ => Nat.le_trans (count_mono fun entry => ?_) (hwf.depth on.live),
        fun _ => Nat.sub_eq_of_eq_add ((hwf.transfers on.live).trans
          (Port.purged_carries (core.ports p) (core.connectionId c)).symm),
        fun h => Nat.le_trans (Nat.sub_le _ _) (hwf.maxTransfers on.live)⟩,
      connWellFormed := ⟨fun _ => inv.generation on,
        fun _ => ⟨rfl, rfl⟩, fun kind reason hn => ?_⟩,
      others := fun id hid => ⟨count_congr fun entry => ?_, count_congr fun entry => ?_⟩,
      counted := fun h => absurd h hne.1,
      purged := fun _ => count_eq_zero.2 fun entry => ?_ }
  · intro h
    change ((core.ports p).purged (core.connectionId c)).requests entry |>.isLive at h
    rw [Port.purged_requests] at h
    split at h
    · cases h
    · exact h
  · rcases hst with ⟨r, rfl⟩ | ⟨k, r, hk, rfl⟩
    · cases hn
    · cases hn
      exact hk
  · change (((core.ports p).purged (core.connectionId c)).requests entry).heldBy id = _
    rw [Port.purged_requests]
    split
    · next h => simp [heldBy, (heldBy_iff.1 h).2, Ne.symm hid]
    · rfl
  · change (((core.ports p).purged (core.connectionId c)).requests entry).carriedBy id = _
    rw [Port.purged_requests]
    split
    · next h =>
      simp [carriedBy, heldBy, (heldBy_iff.1 h).2, Ne.symm hid]
    · rfl
  · change (((core.ports p).purged (core.connectionId c)).requests entry).heldBy _ = false
    rw [Port.purged_requests]
    split
    · rfl
    · next h => exact Bool.eq_false_iff.2 h

theorem Move.inv (hP : P ≤ 255) (hC : C ≤ 65535)
    (move : Move core obs effects core') (inv : Inv core) : Inv core' := by
  cases move with
  | register dead generation valid => exact inv.register hP dead generation valid _ _ _ _
  | connect live free generation => exact inv.connect hC live free generation _ _
  | enqueue on capacity free seq connection =>
    exact inv.enqueue hP hC on capacity free seq connection
  | deliver live queued least => exact inv.deliver hP hC queued
  | takeNotice live notice =>
    refine inv.freeConnection fun hop => ?_
    simp [PortCore.notice, hop, ConnState.isClosePending] at notice
  | post on room => exact inv.post hP hC on room _
  | takeEvent state pop => exact inv.takeEvent pop
  | finish terminal =>
    refine inv.freeConnection fun hop => ?_
    cases terminal with
    | disconnected state | serverGone state => rw [state] at hop; cases hop
  | disconnect on =>
    exact inv.endConnection hP hC on (.inl ⟨_, rfl⟩) le_rfl
  | bind live => exact inv.bind _ _
  | clientClose on kind_ne =>
    exact inv.endConnection hP hC on (.inr ⟨_, _, kind_ne, rfl⟩) (Nat.zero_le _)
  | discard ended =>
    refine inv.freeConnection fun hop => ?_
    rcases ended with ⟨reason, h⟩ | h
    · rw [h] at hop; cases hop
    · rw [h] at hop; cases hop
  | teardown live wakes => exact inv.teardown hP _ _

theorem Path.inv (hP : P ≤ 255) (hC : C ≤ 65535) {n : Nat} (path : Path core n effects core')
    (inv : Inv core) : Inv core' := by
  induction path with
  | refl => exact inv
  | snoc _ move ih => exact move.inv hP hC ih

theorem Steps.inv [DecidableEq B] (fits : Fits P C)
    (steps : Steps core obs effects core') (inv : Inv core) : Inv core' := by
  cases steps with
  | move move => exact move.inv fits.ports.2 fits.connections.2 inv
  | path _ path => exact path.inv fits.ports.2 fits.connections.2 inv

/-- What every move shows, and a silent move after silent ones, a call shows. -/
theorem Steps.shows [DecidableEq B] (fits : Fits P C)
    {R : PortCore P C B → Observation → PortCore P C B → Prop} (refl : R core .none core)
    (trans : ∀ {mid core'}, R core .none mid → R mid .none core' → R core .none core')
    (move : ∀ {mid obs effects core'}, Inv mid → Move mid obs effects core' → R mid obs core')
    (steps : Steps core obs effects core') (inv : Inv core) :
    R core obs core' := by
  cases steps with
  | move step => exact move inv step
  | path short path =>
    clear short
    induction path with
    | refl => exact refl
    | snoc path step ih => exact trans ih (move (path.inv fits.ports.2 fits.connections.2 inv) step)

end Moves

/-! ## Runs -/

/-- A core that `PortCore::new` returns meets its assertions, and is empty. -/
theorem PortCore.new_eq (h : PortCore.new = some core) :
    Fits P C ∧ core = ⟨fun _ => .empty, fun _ => .empty⟩ := by
  unfold PortCore.new at h
  split at h
  · next fits =>
    cases h
    exact ⟨fits, rfl⟩
  · cases h

theorem run_inv [DecidableEq B] (h : PortCore.new = some core)
    (table : CapabilityTable N) (ops : List (PortOp B)) :
    Inv (run portStep ⟨core, table⟩ ops).core := by
  obtain ⟨fits, rfl⟩ := new_eq h
  exact run_invariant portStep .new (fun s op inv => (portStep_steps fits s op).inv fits inv) ops

end CleanSlate.ServicePort
