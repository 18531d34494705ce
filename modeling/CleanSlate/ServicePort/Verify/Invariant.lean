import CleanSlate.ServicePort.Verify.Steps

/-!
# The structural invariant of the port core

What `check_invariants` asks of the core, and what it takes to keep that true: every queued request
belongs to an open connection of its port, whose counters are the numbers of its queued requests;
every connection in use is bound to a live port, until that port is torn down.
-/

namespace CleanSlate.ServicePort

open Lib PortCore Slots Request
open Function (update update_self update_of_ne update_apply)
open Capability

variable {P C N : Nat} {B : Type} {port : Port B} {p : Fin P} {core : PortCore P C B} {c d : Fin C}
  {conn : Connection}

/-! ## The invariant -/

/-- What holds of a port by itself. -/
structure Port.WellFormed (port : Port B) : Prop where
  params : port.live → port.params.validate = .ok ()
  nextSeq : port.live → port.nextSeq ≠ 0
  dead : port.live = false → ∀ entry, (port.requests entry).isLive = false
  depth : port.live → port.queuedRequests ≤ port.params.requestDepth
  transfers : port.live → port.transfersInFlight = Slots.count Request.carries port.requests
  maxTransfers : port.live → port.transfersInFlight ≤ portMaxTransfersInFlight

/-- What holds of a connection by itself. -/
structure Connection.WellFormed (conn : Connection) : Prop where
  generation : conn.state ≠ .free → conn.generation ≠ 0
  idle : conn.state ≠ .open → conn.outstanding = 0 ∧ conn.transfersInFlight = 0
  notice : ∀ kind reason, conn.state = .closePending kind reason → kind ≠ .request

variable {conn : Connection} {c : Fin C} {core : PortCore P C B}

theorem Port.WellFormed.of_dead (h : port.live = false)
    (hnn : ∀ entry, (port.requests entry).isLive = false) : port.WellFormed := by
  constructor <;> simp [h, hnn]

theorem Connection.WellFormed.of_free (h : conn.state = .free) (hout : conn.outstanding = 0)
    (htr : conn.transfersInFlight = 0) : conn.WellFormed :=
  ⟨fun hn => absurd h hn, fun _ => ⟨hout, htr⟩, fun kind reason hn => by rw [h] at hn; cases hn⟩

theorem Connection.WellFormed.of_open (h : conn.state = .open) (hgen : conn.generation ≠ 0) :
    conn.WellFormed :=
  ⟨fun _ => hgen, fun hn => absurd h hn, fun kind reason hn => by rw [h] at hn; cases hn⟩

/-- The counters of a connection and the queue of its port agree, within the port's limits. -/
structure Counted (port : Port B) (id : ConnectionId) (conn : Connection) : Prop where
  outstanding : conn.outstanding = Slots.count (Request.heldBy id) port.requests
  transfers : conn.transfersInFlight = Slots.count (Request.carriedBy id) port.requests
  maxOutstanding : conn.outstanding ≤ port.params.maxOutstanding
  maxTransfers : conn.transfersInFlight ≤ portMaxTransfersInFlightPerConnection

structure Inv (core : PortCore P C B) : Prop where
  ports : ∀ p, (core.ports p).WellFormed
  connections : ∀ c, (core.connections c).WellFormed
  owner : ∀ p entry, ((core.ports p).requests entry).isLive →
    ∃ c, OpenOn core p c ∧ ((core.ports p).requests entry).connection = core.connectionId c
  counted : ∀ p c, OpenOn core p c →
    Counted (core.ports p) (core.connectionId c) (core.connections c)
  depth : ∀ p c, (core.ports p).live → (core.connections c).state ≠ .free →
    (core.connections c).port = core.key p →
    (core.connections c).events.len ≤ (core.ports p).params.eventDepth
  bound : ∀ c, (core.connections c).state ≠ .free → (core.connections c).state ≠ .serverGone →
    ∃ p, (core.ports p).live ∧ (core.connections c).port = core.key p
  registered : ∀ c, (core.connections c).state ≠ .free → ∃ p : Fin P,
    (core.connections c).port.slot = UInt8.ofNat p ∧
      (core.connections c).port.generation.toNat ≤ (core.ports p).generation.toNat
  gone : ∀ c, (core.connections c).state = .serverGone → ∀ p, (core.ports p).live →
    (core.connections c).port ≠ core.key p

theorem OpenOn.used (on : OpenOn core p c) : (core.connections c).state ≠ .free := by
  rw [on.state]
  simp

theorem Inv.generation (inv : Inv core) (on : OpenOn core p c) :
    (core.connections c).generation ≠ 0 :=
  (inv.connections c).generation on.used

theorem Inv.new : Inv (⟨fun _ => .empty, fun _ => .empty⟩ : PortCore P C B) where
  ports _ := .of_dead rfl fun _ => rfl
  connections _ := .of_free rfl rfl rfl
  owner _ _ h := nomatch h
  counted _ _ h := nomatch h.live
  depth _ _ h := nomatch h
  bound _ h := absurd rfl h
  registered _ h := absurd rfl h
  gone _ h := nomatch h

/-! ## Writes to one port and one connection -/

theorem OpenOn.congr {core' : PortCore P C B} (h : OpenOn core p c)
    (hlv : (core'.ports p).live = (core.ports p).live) (hkey : core'.key p = core.key p)
    (hcn : core'.connections c = core.connections c) : OpenOn core' p c :=
  ⟨hlv.trans h.live, by rw [hcn, h.state], by rw [hcn, hkey, h.port]⟩

/-- A port and a connection written back. -/
def PortCore.write (core : PortCore P C B) (p : Fin P) (c : Fin C) (port : Port B)
    (conn : Connection) : PortCore P C B :=
  (core.setPort p port).setConnection c conn

namespace PortCore

section

variable (core : PortCore P C B) (p : Fin P) (c : Fin C) (port : Port B) (conn : Connection)

@[simp] theorem write_ports : (core.write p c port conn).ports = update core.ports p port := rfl

@[simp] theorem write_connections :
    (core.write p c port conn).connections = update core.connections c conn := rfl

end

theorem key_write (h : port.generation = (core.ports p).generation) (q : Fin P) :
    (core.write p c port conn).key q = core.key q :=
  key_congr (read_update h q)

theorem connectionId_write (h : conn.generation = (core.connections c).generation) (d : Fin C) :
    (core.write p c port conn).connectionId d = core.connectionId d :=
  connectionId_congr (read_update h d)

end PortCore

/-- What a call writes to the port `p` and its open connection `c`: other connections' requests are
left alone, and the connection's own are counted, or gone with the connection. -/
structure Rewrites (core : PortCore P C B) (p : Fin P) (c : Fin C) (port : Port B)
    (conn : Connection) : Prop where
  generation : port.generation = (core.ports p).generation
  live : port.live
  params : port.params = (core.ports p).params
  wellFormed : port.WellFormed
  connGeneration : conn.generation = (core.connections c).generation
  connPort : conn.port = core.key p
  connWellFormed : conn.WellFormed
  inUse : conn.state ≠ .free ∧ conn.state ≠ .serverGone
  depth : conn.events.len ≤ (core.ports p).params.eventDepth
  others : ∀ id, id ≠ core.connectionId c → Slots.count (Request.heldBy id) port.requests =
        Slots.count (Request.heldBy id) (core.ports p).requests ∧
      Slots.count (Request.carriedBy id) port.requests =
        Slots.count (Request.carriedBy id) (core.ports p).requests
  counted : conn.state = .open → Counted port (core.connectionId c) conn
  purged : conn.state ≠ .open → Slots.count (Request.heldBy (core.connectionId c)) port.requests = 0

theorem Request.heldBy_iff {id : ConnectionId} {request : Request} :
    request.heldBy id ↔ request.isLive ∧ request.connection = id := by
  simp [heldBy]

variable {q : Fin P}

section Write
variable {core : PortCore P C B} {p : Fin P} {c : Fin C} {port : Port B} {conn : Connection}

theorem openOn_write_of_ne (hgen : port.generation = (core.ports p).generation)
    (hlv : port.live = (core.ports p).live) (hd : d ≠ c) :
    OpenOn (core.write p c port conn) q d ↔ OpenOn core q d := by
  have hcn : (core.write p c port conn).connections d = core.connections d := update_of_ne hd ..
  have hpr : ((core.write p c port conn).ports q).live = (core.ports q).live := read_update hlv q
  exact ⟨fun h => h.congr hpr.symm (key_write hgen q).symm hcn.symm,
    fun h => h.congr hpr (key_write hgen q) hcn⟩

theorem openOn_write_self (hP : P ≤ 255) (hgen : port.generation = (core.ports p).generation)
    (hlv : port.live) (hpr : conn.port = core.key p) :
    OpenOn (core.write p c port conn) q c ↔ q = p ∧ conn.state = .open := by
  have hcn : (core.write p c port conn).connections c = conn := update_self ..
  constructor
  · rintro ⟨-, h2, h3⟩
    rw [hcn] at h2 h3
    rw [hpr] at h3
    exact ⟨(key_inj hP h3).symm, h2⟩
  · rintro ⟨rfl, hop⟩
    refine ⟨?_, by rw [hcn, hop], ?_⟩
    · rw [write_ports, update_self, hlv]
    · rw [hcn, key_write hgen, hpr]

theorem Rewrites.openOn_iff (h : Rewrites core p c port conn) (on : OpenOn core p c) (hd : d ≠ c) :
    OpenOn (core.write p c port conn) q d ↔ OpenOn core q d :=
  openOn_write_of_ne h.generation (h.live.trans on.live.symm) hd

theorem Rewrites.openOn_self (h : Rewrites core p c port conn) (hP : P ≤ 255) :
    OpenOn (core.write p c port conn) q c ↔ q = p ∧ conn.state = .open :=
  openOn_write_self hP h.generation h.live h.connPort

theorem Inv.write_owner (hP : P ≤ 255) (inv : Inv core) (on : OpenOn core p c)
    (h : Rewrites core p c port conn) (q : Fin P) (entry : Fin portMaxRequestQueueDepth)
    (hlv : (((core.write p c port conn).ports q).requests entry).isLive) :
    ∃ d, OpenOn (core.write p c port conn) q d ∧
      (((core.write p c port conn).ports q).requests entry).connection =
        (core.write p c port conn).connectionId d := by
  simp only [connectionId_write h.connGeneration]
  by_cases hq : q = p
  · subst hq
    rw [write_ports, update_self] at hlv ⊢
    by_cases hid : (port.requests entry).connection = core.connectionId c
    · refine ⟨c, (h.openOn_self hP).2 ⟨rfl, ?_⟩, hid⟩
      by_contra hop
      have hzr := count_eq_zero.1 (h.purged hop) entry
      rw [heldBy_iff.2 ⟨hlv, hid⟩] at hzr
      cases hzr
    · have hpos : 0 < count (heldBy (port.requests entry).connection) (core.ports q).requests := by
        rw [← (h.others _ hid).1]
        exact count_pos.2 ⟨entry, heldBy_iff.2 ⟨hlv, rfl⟩⟩
      obtain ⟨old, hold⟩ := count_pos.1 hpos
      obtain ⟨holdLive, holdId⟩ := heldBy_iff.1 hold
      obtain ⟨d, hd, hdid⟩ := inv.owner q old holdLive
      have hdc : d ≠ c := by
        rintro rfl
        exact hid (holdId ▸ hdid)
      exact ⟨d, (h.openOn_iff on hdc).2 hd, holdId ▸ hdid⟩
  · rw [write_ports, update_of_ne hq] at hlv ⊢
    obtain ⟨d, hd, hdid⟩ := inv.owner q entry hlv
    have hdc : d ≠ c := by
      rintro rfl
      exact hq (key_inj hP (hd.port.symm.trans on.port))
    exact ⟨d, (h.openOn_iff on hdc).2 hd, hdid⟩

section

variable (hP : P ≤ 255) (hC : C ≤ 65535) (inv : Inv core) (on : OpenOn core p c)
  (h : Rewrites core p c port conn)
include hP hC inv on h

theorem Inv.write_counted (q : Fin P) (d : Fin C) (hd : OpenOn (core.write p c port conn) q d) :
    Counted ((core.write p c port conn).ports q) ((core.write p c port conn).connectionId d)
      ((core.write p c port conn).connections d) := by
  rw [connectionId_write h.connGeneration]
  by_cases hdc : d = c
  · subst hdc
    obtain ⟨rfl, hop⟩ := (h.openOn_self hP).1 hd
    rw [write_ports, update_self, write_connections, update_self]
    exact h.counted hop
  · have hold := (h.openOn_iff on hdc).1 hd
    have hcn := inv.counted q d hold
    rw [write_connections, update_of_ne hdc]
    by_cases hq : q = p
    · subst hq
      rw [write_ports, update_self]
      have hne : core.connectionId d ≠ core.connectionId c := fun heq =>
        hdc (connectionId_inj hC (inv.generation hold) (inv.generation on) heq).1
      obtain ⟨hhl, hcr⟩ := h.others _ hne
      exact ⟨hcn.outstanding.trans hhl.symm, hcn.transfers.trans hcr.symm,
        h.params ▸ hcn.maxOutstanding, hcn.maxTransfers⟩
    · rw [write_ports, update_of_ne hq]
      exact hcn

/-- The invariant survives what a call writes to a port and one of its open connections. -/
theorem Inv.write : Inv (core.write p c port conn) where
  ports := (Function.forall_update_iff _ fun _ => Port.WellFormed).2
    ⟨h.wellFormed, fun q _ => inv.ports q⟩
  connections := (Function.forall_update_iff _ fun _ => Connection.WellFormed).2
    ⟨h.connWellFormed, fun d _ => inv.connections d⟩
  owner := inv.write_owner hP on h
  counted := inv.write_counted hP hC on h
  depth q d hlv hus hpr := by
    rw [key_write h.generation] at hpr
    have hpm : ((core.write p c port conn).ports q).params = (core.ports q).params :=
      read_update h.params q
    have hql : (core.ports q).live := (read_update (h.live.trans on.live.symm) q).symm.trans hlv
    rw [hpm]
    by_cases hd : d = c
    · subst hd
      rw [write_connections, update_self] at hpr ⊢
      rw [h.connPort] at hpr
      obtain rfl := key_inj hP hpr
      exact h.depth
    · rw [write_connections, update_of_ne hd] at hus hpr ⊢
      exact inv.depth q d hql hus hpr
  bound d hfr hgn := by
    by_cases hd : d = c
    · subst hd
      refine ⟨p, ?_, ?_⟩
      · rw [write_ports, update_self, h.live]
      · rw [write_connections, update_self, key_write h.generation, h.connPort]
    · rw [write_connections, update_of_ne hd] at hfr hgn ⊢
      obtain ⟨q, hq, hpr⟩ := inv.bound d hfr hgn
      exact ⟨q, (read_update (h.live.trans on.live.symm) q).trans hq,
        by rw [key_write h.generation, hpr]⟩
  registered d hfr := by
    have hgen : ∀ q, ((core.write p c port conn).ports q).generation =
        (core.ports q).generation := read_update h.generation
    simp only [hgen]
    by_cases hd : d = c
    · subst hd
      rw [write_connections, update_self, h.connPort]
      exact ⟨p, rfl, le_rfl⟩
    · rw [write_connections, update_of_ne hd] at hfr ⊢
      exact inv.registered d hfr
  gone d hgn q hlv := by
    rw [key_write h.generation]
    by_cases hd : d = c
    · subst hd
      rw [write_connections, update_self] at hgn
      exact absurd hgn h.inUse.2
    · rw [write_connections, update_of_ne hd] at hgn ⊢
      exact inv.gone d hgn q
        ((read_update (h.live.trans on.live.symm) q).symm.trans hlv)

end

end Write

/-! ## Writes to a connection alone -/

/-- A connection leaves its queue of requests alone, or is freed when it has none. -/
structure Settles (conn conn' : Connection) : Prop where
  generation : conn'.generation = conn.generation
  wellFormed : conn'.WellFormed
  state : conn'.state = .free ∧ conn.state ≠ .open ∨
    conn'.state = conn.state ∧ conn'.port = conn.port
  outstanding : conn'.outstanding = conn.outstanding
  transfers : conn'.transfersInFlight = conn.transfersInFlight
  events : conn'.events.len ≤ conn.events.len

theorem Settles.openOn_iff (h : Settles (core.connections c) conn) :
    OpenOn (core.setConnection c conn) p d ↔ OpenOn core p d := by
  by_cases hd : d = c
  · subst hd
    have hcn : (core.setConnection d conn).connections d = conn := update_self ..
    rcases h.state with ⟨hfr, hop⟩ | ⟨hst, hpr⟩
    · constructor
      · rintro ⟨-, h2, -⟩
        rw [hcn, hfr] at h2
        cases h2
      · rintro ⟨-, h2, -⟩
        exact absurd h2 hop
    · constructor
      · rintro ⟨h1, h2, h3⟩
        rw [hcn] at h2 h3
        exact ⟨h1, hst ▸ h2, hpr ▸ h3⟩
      · rintro ⟨h1, h2, h3⟩
        exact ⟨h1, by rw [hcn, hst, h2], by rw [hcn, hpr, h3]; rfl⟩
  · have hcn : (core.setConnection c conn).connections d = core.connections d := update_of_ne hd ..
    constructor
    · rintro ⟨h1, h2, h3⟩
      rw [hcn] at h2 h3
      exact ⟨h1, h2, h3⟩
    · rintro ⟨h1, h2, h3⟩
      exact ⟨h1, by rw [hcn, h2], by rw [hcn, h3]; rfl⟩

/-- What is in use after a connection settles was in use before, on the same port. -/
theorem Settles.before (h : Settles (core.connections c) conn)
    (hus : ((core.setConnection c conn).connections d).state ≠ .free) :
    ((core.setConnection c conn).connections d).state = (core.connections d).state ∧
      ((core.setConnection c conn).connections d).port = (core.connections d).port ∧
      ((core.setConnection c conn).connections d).events.len ≤ (core.connections d).events.len := by
  rw [setConnection_connections, update_apply] at hus ⊢
  split at hus
  · next hd =>
    subst hd
    rw [if_pos rfl]
    rcases h.state with ⟨hfr, -⟩ | ⟨hst, hpr⟩
    · exact absurd hfr hus
    · exact ⟨hst, hpr, h.events⟩
  · next hd =>
    rw [if_neg hd]
    exact ⟨rfl, rfl, le_rfl⟩

theorem Inv.setConnection (inv : Inv core) (h : Settles (core.connections c) conn) :
    Inv (core.setConnection c conn) where
  ports := inv.ports
  connections d := by
    rw [setConnection_connections, update_apply]
    split
    · exact h.wellFormed
    · exact inv.connections d
  owner p entry hlv := by
    obtain ⟨d, hd, hid⟩ := inv.owner p entry hlv
    exact ⟨d, h.openOn_iff.2 hd, hid.trans (connectionId_setConnection core c h.generation d).symm⟩
  counted p d hd := by
    have hcn := inv.counted p d (h.openOn_iff.1 hd)
    rw [connectionId_setConnection core c h.generation, setConnection_connections, update_apply]
    split
    · next hdc =>
      subst hdc
      exact ⟨h.outstanding.trans hcn.outstanding, h.transfers.trans hcn.transfers,
        h.outstanding ▸ hcn.maxOutstanding, h.transfers ▸ hcn.maxTransfers⟩
    · exact hcn
  depth p d hlv hus hpr := by
    obtain ⟨hst, hsm, hlen⟩ := h.before hus
    exact Nat.le_trans hlen (inv.depth p d hlv (hst ▸ hus) (hsm ▸ hpr))
  bound d hus hgn := by
    obtain ⟨hst, hsm, -⟩ := h.before hus
    obtain ⟨p, hlv, hpr⟩ := inv.bound d (hst ▸ hus) (hst ▸ hgn)
    exact ⟨p, hlv, hsm.trans hpr⟩
  registered d hus := by
    obtain ⟨hst, hsm, -⟩ := h.before hus
    rw [hsm]
    exact inv.registered d (hst ▸ hus)
  gone d hgn p hlv := by
    obtain ⟨hst, hsm, -⟩ := h.before (by rw [hgn]; simp)
    rw [hsm]
    exact inv.gone d (hst ▸ hgn) p hlv

end CleanSlate.ServicePort
