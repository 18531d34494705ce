import CleanSlate.Capability.Verify.Freshness
import CleanSlate.ServicePort.Verify.Moves

/-!
# Where the children of transfers are

A child that a SEND installs is carried by the request it queued until a RECV hands it over or the
request is dropped. Dropping requests revokes and releases exactly the children they carry, and
only where the slot still answers to the child's handle (`Purges`).
-/

namespace CleanSlate.ServicePort

open Lib Function PortCore
open Capability
open CapabilityTable

variable {P C N : Nat} {B : Type} {core core' : PortCore P C B} {port : Port B} {q p : Fin P}
  {e entry : Fin portMaxRequestQueueDepth} {transfer : Option Transfer} {error : PortError}

/-! ## Dropping capabilities -/

theorem release_not_occupied (r : CapabilityRecord) : ¬r.release.Occupied := by
  unfold CapabilityRecord.release CapabilityRecord.Occupied
  split <;> simp [CapabilityRecord.empty]

/-- The table after the capabilities of the handles `H` were revoked and released. -/
def Drops (table table' : CapabilityTable N) (H : CapabilityHandle → Prop) : Prop :=
  ∀ i, (table'.slots i = table.slots i ∧ ∀ h, H h → ¬table.Resolves h i) ∨
    (∃ h, H h ∧ table.Resolves h i) ∧ table'.slots i = (table.slots i).release

variable {table table' table'' : CapabilityTable N} {H H' : CapabilityHandle → Prop}

section Drops

theorem Drops.of_none (table : CapabilityTable N) (h : ∀ handle i, H handle →
    ¬table.Resolves handle i) : Drops table table H :=
  fun i => .inl ⟨rfl, fun handle hh => h handle i hh⟩

theorem Drops.gone (h : Drops table table' H) {handle : CapabilityHandle} (hh : H handle)
    (i : Fin N) : ¬table'.Resolves handle i := by
  intro hres
  rcases h i with ⟨heq, hnn⟩ | ⟨-, heq⟩
  · exact hnn handle hh ((resolves_congr heq).1 hres)
  · have hocc := hres.2
    rw [heq] at hocc
    exact release_not_occupied _ hocc

theorem Drops.trans (h : Drops table table' H) (h' : Drops table' table'' H') :
    Drops table table'' fun handle => H handle ∨ H' handle := by
  intro i
  rcases h i with ⟨heq, hnn⟩ | ⟨⟨handle, hh, hres⟩, heq⟩
  · -- the first leaves slot `i`, so the second finds it as it was
    rcases h' i with ⟨heq', hnn'⟩ | ⟨⟨handle, hh, hres⟩, heq'⟩
    · refine .inl ⟨heq'.trans heq, ?_⟩
      rintro handle (hh | hh) hres
      · exact hnn handle hh hres
      · exact hnn' handle hh ((resolves_congr heq).2 hres)
    · exact .inr ⟨⟨handle, .inr hh, (resolves_congr heq).1 hres⟩, by rw [heq', heq]⟩
  · -- a released slot answers to no handle
    rcases h' i with ⟨heq', -⟩ | ⟨⟨other, -, hot⟩, -⟩
    · exact .inr ⟨⟨handle, .inl hh, hres⟩, heq'.trans heq⟩
    · have hocc := hot.2
      rw [heq] at hocc
      exact absurd hocc (release_not_occupied _)

theorem Drops.ages (h : Drops table table' H) : Ages table table' := by
  intro i
  rcases h i with ⟨heq, -⟩ | ⟨⟨handle, -, hres⟩, heq⟩
  · exact .of_eq heq
  · rw [heq]
    exact .of_lt (position_release hres.2)

/-- Revoking and releasing an occupied slot empties it, or retires it. -/
theorem releaseRevoked_revokeLive {r : CapabilityRecord} (h : r.Occupied) :
    r.revokeLive.releaseRevoked = r.release := by
  unfold CapabilityRecord.revokeLive CapabilityRecord.releaseRevoked
  rcases h with h | h
  · rw [if_pos h]
    rfl
  · have hlv : ¬r.state = .live := by
      rw [h]
      simp
    rw [if_neg hlv, if_pos h]

/-- `release_child` drops the child's own capability, if it is still there. -/
theorem releaseChild_drops (table : CapabilityTable N) (child : TransferredCap)
    (effects : Effects B) (hH : ∀ handle, H handle ↔ CapabilityHandle.decode child.handle = .ok handle) :
    Drops table (releaseChild table child effects).1 H := by
  unfold releaseChild
  split
  · next hdc => exact .of_none table fun handle i h => by rw [hH, hdc] at h; cases h
  next handle hdc =>
  have hon : ∀ other, H other → other = handle :=
    fun other h => Except.ok.inj (((hH other).1 h).symm.trans hdc)
  split
  · next hrc =>
    refine .of_none table fun other i h hres => ?_
    rw [hon other h] at hres
    rw [record_of_resolves hres] at hrc
    cases hrc
  · next record hrc =>
    obtain ⟨i, hres, -⟩ := record_ok.1 hrc
    have hsl : handle.slot.toNat = i.val := hres.1.1
    intro j
    simp only [hsl, revokeSlot_eq, releaseSlot_eq, update_self, update_idem]
    by_cases hj : j = i
    · subst hj
      rw [update_self]
      exact .inr ⟨⟨handle, (hH handle).2 hdc, hres⟩, releaseRevoked_revokeLive hres.2⟩
    · rw [update_of_ne hj]
      refine .inl ⟨rfl, fun other h hot => hj ?_⟩
      rw [hon other h] at hot
      exact hot.1.unique hres.1

end Drops

/-! ## Dropping requests -/

/-- A queued request of port `p` carries the child. -/
def Carries (core : PortCore P C B) (p : Fin P) (entry : Fin portMaxRequestQueueDepth)
    (child : TransferredCap) : Prop :=
  ((core.ports p).requests entry).isLive ∧ ((core.ports p).requests entry).transfer = some child

variable {child : TransferredCap} {state' state : CallState P C N B} {sender server : HolderId}
  {i j : Fin N} {handle : CapabilityHandle}

theorem Carries.unique {child' : TransferredCap}
    (h : Carries core p entry child) (h' : Carries core p entry child') : child = child' :=
  Option.some.inj (h.2.symm.trans h'.2)

/-- Requests were dropped, and with them the capabilities `H` they carried. -/
structure Purges (s s' : PortSystem P C N B) (H : CapabilityHandle → Prop) : Prop where
  table : Drops s.table s'.table H
  kept : ∀ p entry child, Carries s'.core p entry child → Carries s.core p entry child
  dropped : ∀ p entry child, Carries s.core p entry child → Carries s'.core p entry child ∨
    ∀ handle, CapabilityHandle.decode child.handle = .ok handle → H handle
  only : ∀ handle, H handle → ∃ p entry child, Carries s.core p entry child ∧
    ¬Carries s'.core p entry child ∧ CapabilityHandle.decode child.handle = .ok handle

theorem Purges.trans {s s' s'' : PortSystem P C N B} (h : Purges s s' H) (h' : Purges s' s'' H') :
    Purges s s'' fun handle => H handle ∨ H' handle where
  table := h.table.trans h'.table
  kept p entry child hc := h.kept p entry child (h'.kept p entry child hc)
  dropped p entry child hc := by
    rcases h.dropped p entry child hc with hmid | hdr
    · exact (h'.dropped p entry child hmid).imp_right fun hdr handle hh =>
        Or.inr (hdr handle hh)
    · exact .inr fun handle hh => .inl (hdr handle hh)
  only := by
    rintro handle (hh | hh)
    · obtain ⟨p, entry, child, hc, hno, hdc⟩ := h.only handle hh
      exact ⟨p, entry, child, hc, fun hls => hno (h'.kept p entry child hls), hdc⟩
    · obtain ⟨p, entry, child, hc, hno, hdc⟩ := h'.only handle hh
      exact ⟨p, entry, child, h.kept p entry child hc, hno, hdc⟩

/-- The core and the table a call works on. -/
def CallState.system (state : CallState P C N B) : PortSystem P C N B := ⟨state.core, state.table⟩

/-- The requests `state'` has dropped since `state` took their children with them. -/
def Unloads (state state' : CallState P C N B) : Prop := ∃ H, Purges state.system state'.system H

theorem Unloads.trans {state'' : CallState P C N B} (h : Unloads state state')
    (h' : Unloads state' state'') : Unloads state state'' := by
  obtain ⟨H, hp⟩ := h
  obtain ⟨H', hp'⟩ := h'
  exact ⟨_, hp.trans hp'⟩

theorem Unloads.of_same (hrq : ∀ p, (state'.core.ports p).requests = (state.core.ports p).requests)
    (htb : state'.table = state.table) : Unloads state state' := by
  have hcr : ∀ p entry child, Carries state'.core p entry child ↔
      Carries state.core p entry child := fun p entry child => by
    unfold Carries
    rw [hrq]
  refine ⟨fun _ => False, ?_, fun p entry child => (hcr p entry child).1,
    fun p entry child h => .inl ((hcr p entry child).2 h), fun _ h => h.elim⟩
  change Drops state.table state'.table _
  rw [htb]
  exact .of_none _ fun _ _ h => h.elim

theorem Unloads.refl (state : CallState P C N B) : Unloads state state :=
  .of_same (fun _ => rfl) rfl

theorem Unloads.foldl {α : Type} {step : CallState P C N B → α → CallState P C N B}
    (hst : ∀ state a, Unloads state (step state a)) (l : List α) (state : CallState P C N B) :
    Unloads state (l.foldl step state) := by
  induction l generalizing state with
  | nil => exact .refl state
  | cons a l ih => exact (hst state a).trans (ih (step state a))

/-- The handle is that of the child the request carries. -/
def HandleAt (core : PortCore P C B) (p : Fin P) (entry : Fin portMaxRequestQueueDepth)
    (handle : CapabilityHandle) : Prop :=
  ∃ child, Carries core p entry child ∧ CapabilityHandle.decode child.handle = .ok handle

theorem Carries.handleAt_iff (h : Carries core p entry child) (handle : CapabilityHandle) :
    HandleAt core p entry handle ↔ CapabilityHandle.decode child.handle = .ok handle := by
  constructor
  · rintro ⟨other, hot, hdc⟩
    rwa [hot.unique h] at hdc
  · exact fun hdc => ⟨child, h, hdc⟩

theorem carries_emptied (hpr : core'.ports = update core.ports p port)
    (hpt : port.requests = update (core.ports p).requests entry .empty) :
    Carries core' q e child ↔ Carries core q e child ∧ ¬(q = p ∧ e = entry) := by
  unfold Carries
  rw [hpr]
  by_cases hq : q = p
  · subst hq
    rw [update_self, hpt]
    by_cases he : e = entry
    · subst he
      simp [update_self, Request.empty]
    · simp [he]
  · simp [hq]

theorem Unloads.of_emptied (hcr : state'.core = state.core.setPort p port)
    (hpr : port.requests = update (state.core.ports p).requests entry .empty)
    (htb : Drops state.table state'.table (HandleAt state.core p entry)) :
    Unloads state state' := by
  have hcs : ∀ q e child, Carries state'.core q e child ↔
      Carries state.core q e child ∧ ¬(q = p ∧ e = entry) := fun q e child =>
    carries_emptied (by rw [hcr, setPort_ports]) hpr
  refine ⟨_, htb, fun q e child h => ((hcs q e child).1 h).1, fun q e child h => ?_, ?_⟩
  · by_cases hqe : q = p ∧ e = entry
    · obtain ⟨rfl, rfl⟩ := hqe
      exact .inr fun handle hh => ⟨child, h, hh⟩
    · exact .inl ((hcs q e child).2 ⟨h, hqe⟩)
  · rintro handle ⟨child, hc, hh⟩
    exact ⟨p, entry, child, hc, fun h => ((hcs p entry child).1 h).2 ⟨rfl, rfl⟩, hh⟩

/-! ## What the calls drop -/

theorem purgeEntry_unloads (id : ConnectionId) (p : Fin P) (state : CallState P C N B)
    (entry : Fin portMaxRequestQueueDepth) : Unloads state (purgeEntry id p state entry) := by
  unfold purgeEntry
  dsimp only
  split
  · exact .refl state
  next hhl =>
  have hlv : ((state.core.ports p).requests entry).isLive := by
    simp only [Bool.not_eq_true', ne_eq, not_or, Bool.not_eq_false, not_not] at hhl
    exact hhl.1
  split
  · next child hch =>
    exact .of_emptied rfl rfl
      (releaseChild_drops state.table child state.effects (Carries.handleAt_iff ⟨hlv, hch⟩))
  · next hnn =>
    refine .of_emptied rfl rfl (.of_none _ fun handle i h => ?_)
    obtain ⟨child, hc, -⟩ := h
    rw [hc.2] at hnn
    cases hnn

theorem teardownEntry_unloads (p : Fin P) (state : CallState P C N B)
    (entry : Fin portMaxRequestQueueDepth) : Unloads state (teardownEntry p state entry) := by
  refine .of_emptied (teardownEntry_core p state entry) rfl ?_
  unfold teardownEntry
  dsimp only
  by_cases hcr : ∃ child, Carries state.core p entry child
  · obtain ⟨child, hc⟩ := hcr
    rw [hc.2]
    simp only [hc.1, if_true]
    exact releaseChild_drops state.table child state.effects hc.handleAt_iff
  · have hnn : ∀ handle i, HandleAt state.core p entry handle → ¬state.table.Resolves handle i :=
      fun handle i h => absurd ⟨_, h.choose_spec.1⟩ hcr
    split
    · next child hch =>
      rw [if_neg fun hlv => hcr ⟨child, hlv, hch⟩]
      exact .of_none _ hnn
    · exact .of_none _ hnn

theorem purgeConnection_unloads (state : CallState P C N B) (p : Fin P) (c : Fin C) :
    Unloads state (purgeConnection state p c) := by
  have h := Unloads.foldl (purgeEntry_unloads (state.core.connectionId c) p)
    (List.finRange portMaxRequestQueueDepth) state
  unfold purgeConnection
  generalize (List.finRange portMaxRequestQueueDepth).foldl
    (purgeEntry (state.core.connectionId c) p) state = emptied at h ⊢
  exact h.trans (.of_same (fun _ => rfl) rfl)

theorem requests_setPort (core : PortCore P C B)
    (h : port.requests = (core.ports p).requests) (q : Fin P) :
    ((core.setPort p port).ports q).requests = (core.ports q).requests :=
  Slots.read_update h q

section
variable [DecidableEq B]

theorem push_unloads (state : CallState P C N B) (effect : Effect B) :
    Unloads state (state.push effect) :=
  .of_same (fun _ => rfl) rfl

theorem closePending_unloads (state : CallState P C N B) (c : Fin C) (kind : RecvKind)
    (reason : UInt32) : Unloads state (closePending state c kind reason) := by
  unfold closePending
  split
  · exact .refl state
  next p _ =>
  have h := purgeConnection_unloads state p c
  generalize purgeConnection state p c = purged at h ⊢
  refine h.trans (.of_same (fun q => ?_) ?_)
  · simp only [CallState.push_core, CallState.signal_core, setConnection_ports]
    exact requests_setPort purged.core (by rfl) q
  · simp only [CallState.push_table, CallState.signal_table]

theorem consumeTerminal_unloads (state : CallState P C N B) (c : Fin C) :
    Unloads state (consumeTerminal state c) :=
  .of_same (fun _ => rfl) rfl

theorem teardownConnection_unloads (key : PortKey) (p : Fin P) (state : CallState P C N B)
    (c : Fin C) : Unloads state (teardownConnection key p state c) := by
  have had := requests_setPort state.core
    (show (state.core.ports p).advance.requests = (state.core.ports p).requests from rfl)
  unfold teardownConnection
  dsimp only
  split
  · exact .refl state
  split
  · exact .of_same had rfl
  · exact .of_same had rfl
  · exact .of_same (fun _ => rfl) rfl
  · exact .refl state
  · exact .refl state

omit [DecidableEq B] in
theorem setPort_unloads (state : CallState P C N B) (p : Fin P)
    (h : port.requests = (state.core.ports p).requests) :
    Unloads state { state with
      core := state.core.setPort p port } :=
  .of_same (requests_setPort state.core h) rfl

theorem teardownPort_unloads (state : CallState P C N B) (p : Fin P) :
    Unloads state (teardownPort state p) := by
  have hrq := Unloads.foldl (teardownEntry_unloads p) (List.finRange portMaxRequestQueueDepth) state
  unfold teardownPort
  dsimp only
  generalize (List.finRange portMaxRequestQueueDepth).foldl (teardownEntry p) state = emptied
    at hrq ⊢
  have hcn := Unloads.foldl (teardownConnection_unloads (state.core.key p) p) (List.finRange C)
    { emptied with
      core := emptied.core.setPort p { emptied.core.ports p with
        transfersInFlight := 0 } }
  generalize (List.finRange C).foldl (teardownConnection (state.core.key p) p) { emptied with
      core := emptied.core.setPort p { emptied.core.ports p with
        transfersInFlight := 0 } } = severed at hcn ⊢
  refine hrq.trans (Unloads.trans ?_ (hcn.trans ?_))
  · exact setPort_unloads emptied p rfl
  · exact ((push_unloads severed _).trans (push_unloads _ _)).trans (setPort_unloads _ p (by rfl))

end

/-! ## Installing a child -/

theorem SlotGenerationId.encode_of_decode {raw : UInt64} {id : SlotGenerationId}
    (h : SlotGenerationId.decode raw = .ok id) : id.encode = raw := by
  unfold SlotGenerationId.decode at h
  split at h
  · cases h
  next hrs =>
  split at h
  · cases h
  · cases h
    exact SlotId.pack_of_and_reserved (not_not.1 hrs)

/-- The transfers `validate` accepts are of a live shared buffer that may be delegated. -/
structure Accepted (table : CapabilityTable N) (handle : CapabilityHandle) (j : Fin N)
    (transfer : ValidatedTransfer) : Prop where
  resolves : table.Resolves handle j
  parent : table.slots j = transfer.parent
  live : table.Live j
  delegates : transfer.parent.rights.contains .delegate
  rights : transferChildRights.isSubsetOf transfer.parent.rights
  depth : transfer.parent.provenance.depth < maxDelegationDepth
  provenance : transfer.provenance = ⟨some handle, transfer.parent.provenance.depth + 1,
    transfer.parent.provenance.rootHolder⟩
  resourceClass : transfer.parent.resource.class = .sharedBuffer
  buffer : transfer.buffer.encode = transfer.parent.resource.id

theorem validate_ok {transfer : Transfer} {validated : ValidatedTransfer}
    (h : validate table sender transfer = .ok validated) :
    ∃ j, Accepted table transfer.handle j validated := by
  unfold validate at h
  split at h
  · cases h
  next hrc =>
  split at h
  · cases h
  next hcl =>
  rw [not_or, not_not, not_not] at hcl
  split at h
  · cases h
  next hvd =>
  split at h
  · cases h
  next hbf =>
  split at h
  · cases h
  split at h
  · cases h
  split at h
  · cases h
  · next hpv =>
    cases h
    obtain ⟨j, hres, rfl⟩ := record_ok.1 hrc
    obtain ⟨-, hlv, hdel, hsub, -⟩ := validateDelegation_ok hvd
    obtain ⟨hdp, rfl⟩ := Provenance.childOf_ok hpv
    exact ⟨j, hres, rfl, hlv, hdel, hsub, hdp, rfl, hcl.2,
      SlotGenerationId.encode_of_decode hbf⟩

theorem reclaimed_releases (table : CapabilityTable N) :
    table.Releases (if hasInstallableSlot table then table else (releaseRevoked table).2) := by
  split
  · exact ⟨fun _ => .inl rfl⟩
  · exact releaseRevoked_releases table

section Install
variable {transfer : ValidatedTransfer}

/-- A child that fails to install leaves every live capability alone. -/
theorem installChild_error (hN : N ≤ 65536) (hcl : transfer.parent.resource.class = .sharedBuffer)
    (h : installChild table server transfer = (.error error, table')) : table.Releases table' := by
  have hrl := reclaimed_releases table
  unfold installChild at h
  dsimp only at h
  generalize (if hasInstallableSlot table then table else (releaseRevoked table).2) = reclaimed
    at h hrl
  split at h
  · cases h
    exact hrl
  next hsl =>
  -- with a slot to install into, and rights that fit, nothing is left to fail
  have hsl : ∃ i, (reclaimed.slots i).Installable := by
    simpa [hasInstallableSlot, CapabilityRecord.Installable, CapabilityTable.stateAt] using hsl
  have hrg : validateRights transfer.parent.resource.class transferChildRights = .ok () := by
    rw [hcl]
    decide
  unfold CapabilityTable.install at h
  rcases grant_cases reclaimed server transfer.parent.resource transferChildRights
      transfer.provenance with ⟨e, he, -⟩ | ⟨-, hfl, -⟩ | ⟨-, i, g, t, -, hg⟩
  · rw [hrg] at he
    cases he
  · obtain ⟨i, hi⟩ := hsl
    exact absurd hi (hfl i)
  · rw [if_pos (Nat.lt_of_lt_of_le i.isLt hN)] at hg
    simp only [hg] at h
    cases h

theorem grant_live (table : CapabilityTable N) (holder : HolderId) (resource : ResourceRef)
    (rights : Rights) (provenance : Provenance) (hlv : table.Live i) :
    (table.grant holder resource rights provenance).2.slots i = table.slots i := by
  rcases grant_cases table holder resource rights provenance with
    ⟨e, -, hg⟩ | ⟨-, -, t, ht, hg⟩ | ⟨-, j, g, t, hf, hg⟩
  · rw [hg]
  · rw [hg]
    exact ht.slot_of_live hlv
  · rw [hg]
    exact (hf.slot_of_live hlv).2

/-- Slots only age, what is live stays, and so does the delegation policy. -/
structure Keeps (table table' : CapabilityTable N) : Prop where
  ages : Ages table table'
  live : ∀ i, table.Live i → table'.slots i = table.slots i
  attenuated : Attenuated table → Attenuated table'

theorem Keeps.refl (table : CapabilityTable N) : Keeps table table :=
  ⟨.refl table, fun _ _ => rfl, id⟩

theorem Keeps.trans (h : Keeps table table') (h' : Keeps table' table'') : Keeps table table'' where
  ages := h.ages.trans h'.ages
  live i hi := by
    have hsm := h.live i hi
    exact (h'.live i (show (table'.slots i).state = .live by rwa [hsm])).trans hsm
  attenuated hat := h'.attenuated (h.attenuated hat)

theorem Keeps.of_releases (h : table.Releases table') : Keeps table table' :=
  ⟨.of_releases h, fun _ => h.slot_of_live, fun hat => hat.releases noLaundering_law h⟩

/-- The record of the child is a leaf below the capability it is made from. -/
theorem Accepted.grant_keeps (h : Accepted table handle j transfer) (server : HolderId) :
    Keeps table (table.grant server transfer.parent.resource transferChildRights
      transfer.provenance).2 := by
  refine ⟨(grant_moves (Q := fun _ => True) _ _ _ _ trivial).ages,
    fun i hi => grant_live _ _ _ _ _ hi, fun hat => ?_⟩
  rw [h.provenance]
  refine hat.grant noLaundering_law _ _ _ _ (fun _ _ => ⟨h.depth, fun _ => ?_⟩) ?_
  · rw [h.resourceClass]
    exact (by decide : transferChildRights.intersects (Rights.rootOnlyFor .sharedBuffer) = false)
  · intro g p hp
    cases hp
    rw [← h.parent]
    exact ⟨j, h.resolves, h.live, ⟨rfl, rfl, rfl⟩, h.parent ▸ h.delegates, h.parent ▸ h.rights⟩

theorem installChild_keeps (h : Accepted table handle j transfer) (server : HolderId) :
    Keeps table (installChild table server transfer).2 := by
  have hrl := reclaimed_releases table
  unfold installChild
  dsimp only
  generalize (if hasInstallableSlot table then table else (releaseRevoked table).2) = reclaimed
    at hrl ⊢
  split
  · exact .of_releases hrl
  have hsm := hrl.slot_of_live h.live
  have hgr := (Keeps.of_releases hrl).trans (Accepted.grant_keeps { h with
    resolves := (resolves_congr hsm).2 h.resolves
    parent := hsm.trans h.parent
    live := (hrl.live_iff j).2 h.live } server)
  unfold CapabilityTable.install
  generalize reclaimed.grant server transfer.parent.resource transferChildRights
    transfer.provenance = result at hgr
  rcases result with ⟨_ | _, t⟩ <;> exact hgr

/-- The capability of a child in the slot it was installed in. -/
structure OwnRecord (server : HolderId) (child : TransferredCap) (r : CapabilityRecord) : Prop where
  holder : r.holder = server
  resourceClass : r.resource.class = .sharedBuffer
  resource : r.resource.id = child.bufferId
  leaf : r.rights.contains .delegate = false

/-- A fresh capability of `server` was installed for the child. -/
structure Installs (table table' : CapabilityTable N) (server : HolderId) (child : TransferredCap) :
    Prop extends Keeps table table' where
  fresh : ∃ handle i, CapabilityHandle.decode child.handle = .ok handle ∧
    slotPosition table handle.slot.toNat < handle.position ∧ table'.Resolves handle i ∧
    table'.Live i ∧ OwnRecord server child (table'.slots i)

theorem installChild_ok (hac : Accepted table handle j transfer)
    (h : installChild table server transfer = (.ok child, table')) :
    Installs table table' server child := by
  have hkp := installChild_keeps hac server
  rw [h] at hkp
  have hrl := reclaimed_releases table
  unfold installChild at h
  dsimp only at h
  generalize (if hasInstallableSlot table then table else (releaseRevoked table).2) = reclaimed
    at h hrl
  split at h
  · cases h
  split at h
  · cases h
  next handle t hin =>
  cases h
  obtain ⟨-, i, hfl, hnm⟩ := grant_ok hin
  have hgen : handle.generation ≠ 0 := by
    intro h0
    have hnat := Generation.toNat_of_next hfl.next
    simp [h0] at hnat
  refine ⟨hkp, handle, i, CapabilityHandle.decode_encode hgen, ?_, ⟨hnm, ?_⟩, ?_, ?_⟩
  · have hlt := (grant_fresh hin).1
    rw [hnm.1, slotPosition_eq] at hlt ⊢
    exact Nat.lt_of_le_of_lt ((Ages.of_releases hrl).advances i) hlt
  · rw [hfl.slot]
    exact .inl rfl
  · unfold CapabilityTable.Live
    rw [hfl.slot]
  · rw [hfl.slot]
    exact ⟨rfl, hac.resourceClass, hac.buffer.symm,
      (by decide : transferChildRights.contains .delegate = false)⟩

end Install

theorem sendChild_error (hN : N ≤ 65536)
    (h : sendChild table sender server transfer = (.error error, table')) :
    table.Releases table' := by
  unfold sendChild at h
  split at h
  · cases h
  split at h
  · cases h
    exact ⟨fun _ => .inl rfl⟩
  next validated hvl =>
  split at h
  · next hin =>
    cases h
    obtain ⟨j, hac⟩ := validate_ok hvl
    exact installChild_error hN hac.resourceClass hin
  · cases h

theorem sendChild_keeps (table : CapabilityTable N) (sender server : HolderId)
    (transfer : Option Transfer) : Keeps table (sendChild table sender server transfer).2 := by
  unfold sendChild
  split
  · exact .refl table
  split
  · exact .refl table
  · next hvl =>
    obtain ⟨j, hac⟩ := validate_ok hvl
    have hkp := installChild_keeps hac server
    split <;> next heq => rw [heq] at hkp; exact hkp

theorem sendChild_none (h : sendChild table sender server transfer = (.ok none, table')) :
    table' = table := by
  unfold sendChild at h
  split at h
  · cases h
    rfl
  · split at h
    · cases h
    · split at h <;> cases h

theorem sendChild_some (h : sendChild table sender server transfer = (.ok (some child), table')) :
    Installs table table' server child := by
  unfold sendChild at h
  split at h
  · cases h
  split at h
  · cases h
  next validated hvl =>
  split at h
  · cases h
  · next hin =>
    cases h
    obtain ⟨j, hac⟩ := validate_ok hvl
    exact installChild_ok hac hin

/-! ## What a call installs and hands over -/

/-- The child a SEND of `transfer` installs, with the server it installs it for. -/
def PortSystem.sentChild (s : PortSystem P C N B) (caller : Caller) (connection : UInt64)
    (transfer : Option Transfer) : Option (HolderId × TransferredCap) :=
  match s.core.clientConnection caller connection with
  | .error _ => none
  | .ok c =>
    match s.core.connectionPort c with
    | .error _ => none
    | .ok p =>
      match (sendChild s.table caller.holder (s.core.ports p).server transfer).1 with
      | .ok (some child) => some ((s.core.ports p).server, child)
      | _ => none

/-- The child that a successful SEND installed. -/
def minted (e : PortEvent P C N B) : Option (HolderId × TransferredCap) :=
  match e.input, e.output.result with
  | .send caller connection _ transfer, .sent (.ok ()) =>
    e.pre.sentChild caller connection transfer
  | _, _ => none

/-- The child that a RECV returned to the server. -/
def handed (e : PortEvent P C N B) : Option TransferredCap :=
  match e.output.result with
  | .received (.ok record) => record.envelope.transfer
  | _ => none

/-- How one call of the engine moves children. -/
inductive Custody (s : PortSystem P C N B) :
    Option (HolderId × TransferredCap) → Option TransferredCap → PortSystem P C N B → Prop
  | kept {s' : PortSystem P C N B}
      (carries : ∀ p entry child, Carries s'.core p entry child ↔ Carries s.core p entry child)
      (keeps : Keeps s.table s'.table) : Custody s none none s'
  | purged {s' : PortSystem P C N B} {H : CapabilityHandle → Prop} (purges : Purges s s' H) :
      Custody s none none s'
  | minted {s' : PortSystem P C N B} {p : Fin P} {entry : Fin portMaxRequestQueueDepth}
      {child : TransferredCap}
      (carries : ∀ q e other, Carries s'.core q e other ↔
        Carries s.core q e other ∨ q = p ∧ e = entry ∧ other = child)
      (installs : Installs s.table s'.table (s.core.ports p).server child) :
      Custody s (some ((s.core.ports p).server, child)) none s'
  | handed {s' : PortSystem P C N B} {p : Fin P} {entry : Fin portMaxRequestQueueDepth}
      {child : TransferredCap} (carried : Carries s.core p entry child)
      (carries : ∀ q e other, Carries s'.core q e other ↔
        Carries s.core q e other ∧ ¬(q = p ∧ e = entry))
      (table : s'.table = s.table) :
      Custody s none (some child) s'

theorem Unloads.custody (h : Unloads state state') :
    Custody state.system none none state'.system := by
  obtain ⟨H, hpr⟩ := h
  exact .purged hpr

theorem takeRequest_ports (core : PortCore P C B) (p : Fin P)
    (entry : Fin portMaxRequestQueueDepth) :
    (takeRequest core p entry).ports = update core.ports p { core.ports p with
      requests := update (core.ports p).requests entry .empty
      transfersInFlight := (core.ports p).transfersInFlight -
        if ((core.ports p).requests entry).transfer.isSome then 1 else 0 } := by
  unfold takeRequest
  dsimp only
  by_cases hsl : ((core.ports p).requests entry).connection.slot.toNat < C
  · rw [dif_pos hsl]
    generalize (if ((core.ports p).requests entry).transfer.isSome then 1 else 0) = carried
    split <;> rfl
  · rw [dif_neg hsl]
    rfl

theorem carries_takeRequest :
    Carries (takeRequest core p entry) q e child ↔ Carries core q e child ∧ ¬(q = p ∧ e = entry) :=
  carries_emptied (takeRequest_ports core p entry) rfl

/-- Taking a request hands over the child it carries. -/
theorem takeRequest_custody (s : PortSystem P C N B) (p : Fin P)
    (hlv : ((s.core.ports p).requests entry).isLive) :
    Custody s none ((s.core.ports p).requests entry).transfer
      ⟨takeRequest s.core p entry, s.table⟩ := by
  cases hch : ((s.core.ports p).requests entry).transfer with
  | none =>
    refine .kept (fun q e other => carries_takeRequest.trans ⟨fun h => h.1, fun h => ⟨h, ?_⟩⟩)
      (.refl s.table)
    rintro ⟨rfl, rfl⟩
    rw [h.2] at hch
    cases hch
  | some child => exact .handed ⟨hlv, hch⟩ (fun _ _ _ => carries_takeRequest) rfl

end CleanSlate.ServicePort
