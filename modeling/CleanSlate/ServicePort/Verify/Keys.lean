import CleanSlate.Lib.Checks
import CleanSlate.ServicePort.Engine

/-!
# Port keys and connection ids

A key or an id is a slot number and the slot's generation. Within the bounds `PortCore::new`
asserts, the lookups of the engine invert them: `port_index` finds exactly the live port of a key,
and `connection_index` exactly the connection in use under an id.
-/

namespace CleanSlate.ServicePort

open Lib Function Slots
open Capability

variable {P C N : Nat} {B : Type} {caller : Caller} {table : CapabilityTable N}

namespace PortCore

/-! ## Writes -/

section

variable (core : PortCore P C B)

@[simp] theorem setPort_ports (p : Fin P) (port : Port B) :
    (core.setPort p port).ports = update core.ports p port := rfl

@[simp] theorem setPort_connections (p : Fin P) (port : Port B) :
    (core.setPort p port).connections = core.connections := rfl

@[simp] theorem setConnection_ports (c : Fin C) (conn : Connection) :
    (core.setConnection c conn).ports = core.ports := rfl

@[simp] theorem setConnection_connections (c : Fin C) (conn : Connection) :
    (core.setConnection c conn).connections = update core.connections c conn := rfl

theorem setPort_self (p : Fin P) : core.setPort p (core.ports p) = core := by
  unfold setPort
  rw [update_eq_self]

theorem setConnection_self (c : Fin C) : core.setConnection c (core.connections c) = core := by
  unfold setConnection
  rw [update_eq_self]

@[simp] theorem setPort_setPort (p : Fin P) (port port' : Port B) :
    (core.setPort p port).setPort p port' = core.setPort p port' := by
  unfold setPort
  rw [update_idem]

@[simp] theorem setConnection_setConnection (c : Fin C) (conn conn' : Connection) :
    (core.setConnection c conn).setConnection c conn' = core.setConnection c conn' := by
  unfold setConnection
  rw [update_idem]

theorem setConnection_setPort (p : Fin P) (c : Fin C) (port : Port B) (conn : Connection) :
    (core.setConnection c conn).setPort p port = (core.setPort p port).setConnection c conn := rfl

end

/-! ## Keys -/

variable {p : Fin P} {core' core : PortCore P C B} {c : Fin C} {raw : UInt64}

theorem key_congr (h : (core'.ports p).generation = (core.ports p).generation) :
    core'.key p = core.key p := by
  unfold key
  rw [h]

theorem key_slot (core : PortCore P C B) (hP : P ≤ 255) (p : Fin P) :
    (core.key p).slot.toNat = p.val :=
  UInt8.toNat_ofNat_of_lt' (by simp only [UInt8.size]; omega)

theorem key_inj (hP : P ≤ 255) {q : Fin P} (h : core.key p = core'.key q) : p = q := by
  apply Fin.ext
  rw [← core.key_slot hP p, ← core'.key_slot hP q, h]

theorem portIndex_eq_some (hP : P ≤ 255) {k : PortKey} :
    core.portIndex k = some p ↔ (core.ports p).live ∧ k = core.key p := by
  unfold portIndex
  constructor
  · intro h
    split at h
    · split at h
      · next hlt hlv =>
        cases h
        refine ⟨hlv.1, ?_⟩
        have hsl : UInt8.ofNat k.slot.toNat = k.slot := UInt8.ofNat_toNat
        unfold key
        rw [hlv.2, hsl]
      · cases h
    · cases h
  · rintro ⟨hlv, rfl⟩
    have hsl := core.key_slot hP p
    have hlt : (core.key p).slot.toNat < P := hsl ▸ p.isLt
    have hp : ⟨(core.key p).slot.toNat, hlt⟩ = p := Fin.ext hsl
    rw [dif_pos hlt, hp, if_pos ⟨hlv, rfl⟩]

theorem portIndex_key (hP : P ≤ 255) (h : (core.ports p).live) :
    core.portIndex (core.key p) = some p :=
  (portIndex_eq_some hP).2 ⟨h, rfl⟩

/-! ## Connection ids -/

theorem connectionId_congr
    (h : (core'.connections c).generation = (core.connections c).generation) :
    core'.connectionId c = core.connectionId c := by
  unfold connectionId
  rw [h]

/-- An allocated slot's id carries its number and generation. -/
theorem connectionId_eq (core : PortCore P C B) (h : (core.connections c).generation ≠ 0) :
    core.connectionId c = ⟨UInt16.ofNat c, (core.connections c).generation⟩ := by
  unfold connectionId SlotGenerationId.new
  rw [if_neg h]

theorem connectionId_opened (h : (core.connections c).generation ≠ generationMax)
    (hnew : (core'.connections c).generation = (core.connections c).generation + 1) :
    core'.connectionId c = ⟨UInt16.ofNat c, (core.connections c).generation + 1⟩ := by
  rw [connectionId_eq core' (by rw [hnew]; exact Generation.add_one_ne_zero h), hnew]

theorem connectionId_slot (core : PortCore P C B) (hC : C ≤ 65535)
    (h : (core.connections c).generation ≠ 0) : (core.connectionId c).slot.toNat = c.val := by
  rw [connectionId_eq core h]
  exact UInt16.toNat_ofNat_of_lt' (by simp only [UInt16.size]; omega)

/-- The slot number of an id leads back to its connection. -/
theorem connectionId_index (core : PortCore P C B) (hC : C ≤ 65535)
    (h : (core.connections c).generation ≠ 0) :
    ∃ hlt : (core.connectionId c).slot.toNat < C, ⟨(core.connectionId c).slot.toNat, hlt⟩ = c :=
  have hsl := connectionId_slot core hC h
  ⟨hsl ▸ c.isLt, Fin.ext hsl⟩

theorem connectionId_generation (core : PortCore P C B) (h : (core.connections c).generation ≠ 0) :
    (core.connectionId c).generation = (core.connections c).generation := by
  rw [connectionId_eq core h]

theorem connectionId_inj (hC : C ≤ 65535) {d : Fin C} (hc : (core.connections c).generation ≠ 0)
    (hd : (core'.connections d).generation ≠ 0) (h : core.connectionId c = core'.connectionId d) :
    c = d ∧ (core.connections c).generation = (core'.connections d).generation := by
  refine ⟨Fin.ext ?_, ?_⟩
  · rw [← connectionId_slot core hC hc, ← connectionId_slot core' hC hd, h]
  · rw [← connectionId_generation core hc, ← connectionId_generation core' hd, h]

theorem connectionIndex_ok (hC : C ≤ 65535) : core.connectionIndex raw = .ok c ↔
      (core.connections c).state ≠ .free ∧ (core.connections c).generation ≠ 0 ∧
        SlotGenerationId.decode raw = .ok (core.connectionId c) := by
  unfold connectionIndex
  constructor
  · intro h
    cases hd : SlotGenerationId.decode raw with
    | error e => rw [hd] at h; cases h
    | ok id =>
      rw [hd] at h
      simp only at h
      split at h
      · next hlt =>
        split at h
        · cases h
        next hn =>
        cases h
        rw [not_or, not_not] at hn
        have hg : id.generation ≠ 0 := by
          unfold SlotGenerationId.decode at hd
          split at hd
          · cases hd
          · split at hd
            · cases hd
            · next hg => cases hd; exact hg
        refine ⟨hn.1, hn.2 ▸ hg, ?_⟩
        rw [connectionId_eq core (hn.2 ▸ hg), hn.2]
        have hsl : UInt16.ofNat id.slot.toNat = id.slot := UInt16.ofNat_toNat
        rw [hsl]
      · cases h
  · rintro ⟨hs, hg, hd⟩
    rw [hd]
    obtain ⟨hlt, hc⟩ := connectionId_index core hC hg
    simp only [dif_pos hlt, hc, connectionId_generation core hg]
    rw [if_neg]
    rintro (h | h)
    · exact hs h
    · exact h rfl

theorem clientConnection_ok : core.clientConnection caller raw = .ok c ↔
      caller.isProcess ∧ core.connectionIndex raw = .ok c ∧
        (core.connections c).client = caller.holder ∧
        (core.connections c).clientGeneration = caller.generation := by
  simp only [clientConnection, ite_error_eq_ok, Bool.not_eq_true', Bool.not_eq_false]
  refine and_congr_right fun _ => ?_
  cases core.connectionIndex raw with
  | error e => simp
  | ok d =>
    simp only [ite_error_eq_ok, not_not, Except.ok.injEq]
    constructor
    · rintro ⟨hcl, hg, rfl⟩
      exact ⟨rfl, hcl, hg⟩
    · rintro ⟨rfl, hcl, hg⟩
      exact ⟨hcl, hg, rfl⟩

theorem servedConnection_ok : core.servedConnection p raw = .ok c ↔
      core.connectionIndex raw = .ok c ∧ (core.connections c).port = core.key p := by
  unfold servedConnection
  cases core.connectionIndex raw with
  | error e => simp
  | ok d =>
    simp only [ite_error_eq_ok, not_not, Except.ok.injEq]
    constructor
    · rintro ⟨hk, rfl⟩
      exact ⟨rfl, hk⟩
    · rintro ⟨rfl, hk⟩
      exact ⟨hk, rfl⟩

theorem connectionPort_ok (hP : P ≤ 255) : core.connectionPort c = .ok p ↔
      (core.ports p).live ∧ (core.connections c).port = core.key p := by
  unfold connectionPort
  rw [← portIndex_eq_some hP]
  cases core.portIndex (core.connections c).port with
  | none =>
    constructor <;> intro h <;> cases h
  | some q =>
    constructor <;> intro h <;> cases h <;> rfl

/-- The server `authorize_serve` accepts serves a live port. -/
theorem authorizeServe_ok {serve : UInt64} (h : core.authorizeServe table caller serve = .ok p) :
    (core.ports p).live = true := by
  unfold authorizeServe at h
  split at h
  · cases h
  split at h
  · cases h
  split at h
  · cases h
  next q hq =>
  split at h
  · cases h
  split at h
  · cases h
  · cases h
    have hpos := position_some hq
    simp only [decide_eq_true_eq] at hpos
    exact hpos.1

/-- `authorize_serve` reads only who serves which resource with which rights. -/
theorem authorizeServe_congr (hlv : ∀ p, (core'.ports p).live = (core.ports p).live)
    (hrs : ∀ p, (core'.ports p).resource = (core.ports p).resource)
    (hrg : ∀ p, (core'.ports p).rights = (core.ports p).rights)
    (hsr : ∀ p, (core'.ports p).server = (core.ports p).server)
    (hgen : ∀ p, (core'.ports p).serverGeneration = (core.ports p).serverGeneration)
    (caller : Caller) (serve : UInt64) :
    core'.authorizeServe table caller serve = core.authorizeServe table caller serve := by
  have hps : ∀ record : CapabilityRecord,
      position (fun port => port.live ∧ port.resource = record.resource) core'.ports =
      position (fun port => port.live ∧ port.resource = record.resource)
        core.ports := fun record => position_congr fun p => by rw [hlv, hrs]
  have hfor : ∀ resourceClass id, core'.portFor resourceClass id =
      core.portFor resourceClass id := fun resourceClass id =>
    position_congr fun p => by rw [hlv, hrs]
  unfold authorizeServe
  simp only [hps, hfor, hrs, hrg, hsr, hgen]

end PortCore

end CleanSlate.ServicePort
