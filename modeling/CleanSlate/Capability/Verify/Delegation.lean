import CleanSlate.Capability.Ops
import CleanSlate.Capability.Verify.Subtree

/-!
# Attenuation along the delegation forest

The invariant of every history of root grants, delegations, subtree, holder and resource
revocations and releases: a live child has a live parent on the same resource and root, one level
up, that may delegate and holds at least the child's rights; and no delegated record holds a
root-only right.

The preservation argument is stated for any edge relation `E` and slot property `Q` that the
writes of the table respect (`Lawful`), because the kernel's other paths into the table keep a
weaker relation.
-/

namespace CleanSlate.Capability

open Lib
open CapabilityTable

variable {N : Nat}

/-! ## What every operation keeps -/

/-- A slot property that retiring, revoking and releasing a record keep. -/
structure SlotLaw (Q : CapabilityRecord → Prop) : Prop where
  retire : ∀ {r : CapabilityRecord}, Q r → Q { r with state := .retired }
  revoke : ∀ {r : CapabilityRecord}, Q r → Q r.revoke
  release : ∀ r : CapabilityRecord, Q r.release
  depth : ∀ {r : CapabilityRecord}, Q r → r.provenance.depth ≤ maxDelegationDepth

/-- A rooted table all of whose slots satisfy `Q`. -/
structure Lawful (E : CapabilityRecord → CapabilityRecord → Prop) (Q : CapabilityRecord → Prop)
    (table : CapabilityTable N) : Prop where
  rooted : table.Rooted E
  slot : ∀ i, Q (table.slots i)

variable {E : CapabilityRecord → CapabilityRecord → Prop} {Q : CapabilityRecord → Prop}
  {table : CapabilityTable N} {table' : CapabilityTable N}

section Lawful
variable (hE : ∀ {r s}, E r s → Lineage r s) (hQ : SlotLaw Q)

include hE hQ in
theorem Lawful.wellRooted (h : Lawful E Q table) : WellRooted table :=
  ⟨h.rooted.mono fun _ _ he => hE he, fun i => hQ.depth (h.slot i)⟩

include hQ in
theorem Lawful.retires (h : Lawful E Q table) (hr : table.Retires table') : Lawful E Q table' := by
  refine ⟨h.rooted.retires hr, fun i => ?_⟩
  rcases hr.slot i with e | ⟨-, e⟩
  · rw [e]
    exact h.slot i
  · rw [e]
    exact hQ.retire (h.slot i)

include hQ in
theorem Lawful.fills (h : Lawful E Q table) {i : Fin N} {r : CapabilityRecord}
    (hf : table.Fills table' i r) (hq : Q r) (hr : ∀ p, r.provenance.parent = some p →
      ∃ j, table.Resolves p j ∧ table.Live j ∧ E (table.slots j) r) : Lawful E Q table' := by
  refine ⟨h.rooted.fills hf hr, fun j => ?_⟩
  by_cases hj : j = i
  · subst hj
    rw [hf.slot]
    exact hq
  · rcases hf.others j hj with e | ⟨-, e⟩
    · rw [e]
      exact h.slot j
    · rw [e]
      exact hQ.retire (h.slot j)

include hQ in
theorem Lawful.revokes (h : Lawful E Q table) {S : Fin N → Prop} (hr : table.Revokes table' S)
    (hclosed : ∀ i j, table.Live i → table.ParentOf j i → S j → S i) : Lawful E Q table' := by
  refine ⟨h.rooted.revokes hr hclosed, fun i => ?_⟩
  by_cases hS : S i
  · rw [hr.hit i hS]
    unfold CapabilityRecord.revokeLive
    split
    · exact hQ.revoke (h.slot i)
    · exact h.slot i
  · rw [hr.miss i hS]
    exact h.slot i

include hQ in
theorem Lawful.releases (h : Lawful E Q table) (hr : table.Releases table') :
    Lawful E Q table' := by
  refine ⟨h.rooted.releases hr, fun i => ?_⟩
  rcases hr.slot i with e | ⟨-, e⟩
  · rw [e]
    exact h.slot i
  · rw [e]
    exact hQ.release _

include hE hQ in
theorem Lawful.revokeSubtree (h : Lawful E Q table) (p : CapabilityHandle) :
    Lawful E Q (revokeSubtree table p).2 := by
  obtain ⟨S, hr, hclosed, -⟩ := revokeSubtree_spec (h.wellRooted hE hQ) p
  exact h.revokes hQ hr hclosed

include hE hQ in
theorem Lawful.revokeTree (h : Lawful E Q table) (selected : CapabilityRecord → Bool) :
    Lawful E Q (releaseWhere selected (revokeTrees selected table).2) := by
  obtain ⟨S, hs⟩ := revokeTrees_spec selected (h.wellRooted hE hQ)
  exact (h.revokes hQ hs.revokes hs.closed).releases hQ (releaseWhere_releases selected _)

include hQ in
/-- A grant keeps the table lawful when the record it would write is. -/
theorem Lawful.grant (h : Lawful E Q table) (holder : HolderId) (resource : ResourceRef)
    (rights : Rights) (provenance : Provenance)
    (hq : validateRights resource.class rights = .ok () →
      ∀ g, Q ⟨.live, holder, resource, rights, provenance, g⟩)
    (hr : ∀ g p, provenance.parent = some p → ∃ j, table.Resolves p j ∧ table.Live j ∧
      E (table.slots j) ⟨.live, holder, resource, rights, provenance, g⟩) :
    Lawful E Q (table.grant holder resource rights provenance).2 := by
  rcases grant_cases table holder resource rights provenance with
    ⟨e, -, he⟩ | ⟨-, -, t, ht, he⟩ | ⟨hv, i, g, t, hf, he⟩
  · rw [he]
    exact h
  · rw [he]
    exact h.retires hQ ht
  · rw [he]
    exact h.fills hQ hf (hq hv g) (hr g)

/-- What `validate_delegation` accepts. -/
theorem validateDelegation_ok {record : CapabilityRecord} {parent : CapabilityHandle}
    {source : HolderId} {rights rights' : Rights}
    (h : validateDelegation record parent source rights = .ok rights') :
    rights' = rights ∧ record.state = .live ∧ record.rights.contains .delegate ∧
      rights.isSubsetOf record.rights ∧
      rights.intersects (Rights.rootOnlyFor record.resource.class) = false := by
  unfold validateDelegation at h
  cases ha : authorize record parent source record.resource .delegate with
  | error e => rw [ha] at h; cases h
  | ok u =>
    rw [ha] at h
    simp only at h
    split at h
    · cases h
    next hsub =>
    split at h
    · cases h
    split at h
    · cases h
    next hrt =>
    obtain ⟨hlv, -, -, -, hdel⟩ := authorize_eq_ok.1 ha
    exact ⟨(Except.ok.inj h).symm, hlv, hdel, by simpa using hsub, by simpa using hrt⟩

/-- What `delegate` does: it is rejected and nothing changes, or it is a grant of a child record
whose parent resolves, is live, may delegate and covers the requested rights. -/
theorem delegate_cases (table : CapabilityTable N) (source : HolderId) (parent : CapabilityHandle)
    (target : HolderId) (rights : Rights) :
    (∃ e, delegate table source parent target rights = (.error e, table)) ∨
    ∃ j, table.Resolves parent j ∧ table.Live j ∧ (table.slots j).rights.contains .delegate ∧
      rights.isSubsetOf (table.slots j).rights ∧
      rights.intersects (Rights.rootOnlyFor (table.slots j).resource.class) = false ∧
      (table.slots j).provenance.depth < maxDelegationDepth ∧
      delegate table source parent target rights =
        table.grant target (table.slots j).resource rights
          ⟨some parent, (table.slots j).provenance.depth + 1,
            (table.slots j).provenance.rootHolder⟩ := by
  unfold delegate
  cases hr : table.record parent with
  | error e => exact .inl ⟨e, rfl⟩
  | ok r =>
    obtain ⟨j, hj, rfl⟩ := record_ok.1 hr
    simp only
    cases hv : validateDelegation (table.slots j) parent source rights with
    | error e => exact .inl ⟨e, rfl⟩
    | ok rights' =>
      obtain ⟨rfl, hlv, hdel, hsub, hrt⟩ := validateDelegation_ok hv
      simp only
      split
      · exact .inl ⟨_, rfl⟩
      cases hc : Provenance.childOf parent (table.slots j).provenance with
      | error e => exact .inl ⟨e, rfl⟩
      | ok prov =>
        obtain ⟨hd, rfl⟩ := Provenance.childOf_ok hc
        exact .inr ⟨j, hj, hlv, hdel, hsub, hrt, hd, rfl⟩

include hE hQ in
/-- An operation keeps the table lawful when the roots and the children it grants are. -/
theorem Lawful.forestStep (h : Lawful E Q table) (op : ForestOp)
    (hroot : ∀ holder resource rights g, validateRights resource.class rights = .ok () →
      Q ⟨.live, holder, resource, rights, .root holder, g⟩)
    (hchild : ∀ j p holder rights g, (table.slots j).rights.contains .delegate →
      rights.isSubsetOf (table.slots j).rights →
      rights.intersects (Rights.rootOnlyFor (table.slots j).resource.class) = false →
      (table.slots j).provenance.depth < maxDelegationDepth →
      let child : CapabilityRecord := ⟨.live, holder, (table.slots j).resource, rights,
        ⟨some p, (table.slots j).provenance.depth + 1, (table.slots j).provenance.rootHolder⟩, g⟩
      (validateRights (table.slots j).resource.class rights = .ok () → Q child) ∧
        E (table.slots j) child) : Lawful E Q (forestStep table op).2 := by
  cases op with
  | grantRoot holder resource rights =>
    refine h.grant hQ holder resource rights (.root holder)
      (fun hv g => hroot holder resource rights g hv) ?_
    intro g p hp
    cases hp
  | delegate source parent target rights =>
    change Lawful E Q (delegate table source parent target rights).2
    rcases delegate_cases table source parent target rights with
      ⟨e, he⟩ | ⟨j, hj, hl, hdel, hsub, hroot, hd, he⟩
    · rw [he]
      exact h
    rw [he]
    have hnew := fun g => hchild j parent target rights g hdel hsub hroot hd
    refine h.grant hQ target _ rights _ (fun hv g => (hnew g).1 hv) ?_
    intro g p hp
    cases hp
    exact ⟨j, hj, hl, (hnew g).2⟩
  | revokeSubtree handle => exact h.revokeSubtree hE hQ handle
  | revokeHolderTree holder | revokeHolderTreeVisiting holder =>
    exact h.revokeTree hE hQ fun r => r.holder = holder
  | revokeResourceTree resourceClass id =>
    exact h.revokeTree hE hQ fun r => r.resource.class = resourceClass ∧ r.resource.id = id
  | releaseRevoked => exact h.releases hQ (releaseRevoked_releases table)

end Lawful

/-! ## Attenuation -/

/-- A delegation hop: the parent may delegate and holds at least the child's rights. -/
structure Attenuates (parent child : CapabilityRecord) : Prop where
  lineage : Lineage parent child
  delegates : parent.rights.contains .delegate
  rights : child.rights.isSubsetOf parent.rights

/-- A record's depth is bounded, and below the root it holds no root-only right. -/
structure NoLaundering (record : CapabilityRecord) : Prop where
  depth : record.provenance.depth ≤ maxDelegationDepth
  rootOnly : 1 ≤ record.provenance.depth →
    record.rights.intersects (Rights.rootOnlyFor record.resource.class) = false

theorem noLaundering_of_depth_zero {r : CapabilityRecord} (h : r.provenance.depth = 0) :
    NoLaundering r :=
  ⟨by omega, fun hd => by omega⟩

theorem release_depth (r : CapabilityRecord) : r.release.provenance.depth = 0 := by
  unfold CapabilityRecord.release
  split <;> rfl

theorem noLaundering_law : SlotLaw NoLaundering where
  retire h := ⟨h.depth, h.rootOnly⟩
  revoke h := ⟨h.depth, fun _ => Rights.empty_intersects _⟩
  release r := noLaundering_of_depth_zero (release_depth r)
  depth h := h.depth

theorem attenuates_lineage {r s : CapabilityRecord} (h : Attenuates r s) : Lineage r s := h.lineage

/-- The invariant of the delegation policy. -/
abbrev Attenuated (table : CapabilityTable N) : Prop := Lawful Attenuates NoLaundering table

theorem attenuated_new : Attenuated (CapabilityTable.new : CapabilityTable N) :=
  ⟨fun i hi => (by cases hi), fun _ => noLaundering_of_depth_zero rfl⟩

/-- Every operation of the delegation policy keeps the invariant. -/
theorem forestStep_attenuated (h : Attenuated table) (op : ForestOp) :
    Attenuated (forestStep table op).2 :=
  h.forestStep attenuates_lineage noLaundering_law op
    (fun _ _ _ _ _ => noLaundering_of_depth_zero rfl) fun _ _ _ _ _ hdel hsub hroot hd =>
      ⟨fun _ => ⟨hd, fun _ => hroot⟩, ⟨rfl, rfl, rfl⟩, hdel, hsub⟩

theorem run_attenuated (ops : List ForestOp) :
    Attenuated (run forestStep (CapabilityTable.new : CapabilityTable N) ops) :=
  run_invariant forestStep attenuated_new (fun _ op h => forestStep_attenuated h op) ops

/-- **The delegation forest.** After any history of root grants, delegations, subtree, holder and
resource revocations and releases on a fresh table of any size: every live record that names a
parent has it resolve to a live record on the same resource and root, exactly one level up, that
may delegate and whose rights cover the child's; no record is deeper than the limit; no delegated
record holds a root-only right; and `revoke_subtree` succeeds on every handle that resolves. -/
theorem delegation_forest (ops : List ForestOp) :
    let table := run forestStep (CapabilityTable.new : CapabilityTable N) ops
    (∀ i, (table.slots i).state = .live → ∀ p, (table.slots i).provenance.parent = some p →
      ∃ r, table.record p = .ok r ∧ r.state = .live ∧
        r.resource = (table.slots i).resource ∧
        r.provenance.rootHolder = (table.slots i).provenance.rootHolder ∧
        r.provenance.depth + 1 = (table.slots i).provenance.depth ∧
        r.rights.contains .delegate = true ∧
        (table.slots i).rights.isSubsetOf r.rights = true) ∧
    (∀ i, (table.slots i).provenance.depth ≤ maxDelegationDepth) ∧
    (∀ i, 1 ≤ (table.slots i).provenance.depth →
      (table.slots i).rights.intersects
        (Rights.rootOnlyFor (table.slots i).resource.class) = false) ∧
    (∀ h r, table.record h = .ok r → ∃ count, (revokeSubtree table h).1 = .ok count) := by
  intro table
  have h : Attenuated table := run_attenuated ops
  refine ⟨?_, fun i => (h.slot i).depth, fun i => (h.slot i).rootOnly, ?_⟩
  · intro i hi p hp
    obtain ⟨j, hr, hl, he⟩ := h.rooted i hi p hp
    exact ⟨table.slots j, record_of_resolves hr, hl, he.lineage.resource.symm,
      he.lineage.rootHolder.symm, he.lineage.depth.symm, he.delegates, he.rights⟩
  · intro handle r hr
    obtain ⟨i, hi, -⟩ := record_ok.1 hr
    obtain ⟨inSet, -, he⟩ := revokeSubtree_eq (h.wellRooted attenuates_lineage noLaundering_law) hi
    exact ⟨_, by rw [he]⟩

/-- **Confinement.** Through any number of delegations a live record keeps to the resource and the
rights of the records it descends from, which are live. -/
theorem authority_confined (ops : List ForestOp) :
    let table := run forestStep (CapabilityTable.new : CapabilityTable N) ops
    table.DescendsFrom ≤ fun j i => table.Live i → table.Live j ∧
      (table.slots i).resource = (table.slots j).resource ∧
      (table.slots i).rights.isSubsetOf (table.slots j).rights := by
  intro table j i hd hi
  have h := (run_attenuated (N := N) ops).rooted
  induction hd with
  | refl => exact ⟨hi, rfl, by simp [Rights.isSubsetOf]⟩
  | tail _ hp ih =>
    obtain ⟨hl, he⟩ := h.live_parent hi hp
    obtain ⟨hlj, hrs, hsub⟩ := ih hl
    have hsub' := he.rights
    refine ⟨hlj, he.lineage.resource.trans hrs, ?_⟩
    simp only [Rights.isSubsetOf, beq_iff_eq] at hsub hsub' ⊢
    rw [← hsub', UInt32.and_assoc, hsub]

end CleanSlate.Capability
