import CleanSlate.Capability.Verify.Delegation

/-!
# Handles are never reissued

Each slot has a position in its own life: empty at generation `g`, occupied at `g`, retired at
`g`, empty at `g + 1`, and so on. No operation moves a slot backwards, and a handle resolves at one
position only, so a handle that stopped resolving never resolves again and no two installs return
the same one. Nothing here assumes a delegation forest: the raw `install`, `revoke` and
`release_slot` are allowed anywhere.
-/

namespace CleanSlate.Capability

open Lib CapabilityRecord
open CapabilityTable

variable {N : Nat} {r'' : CapabilityRecord} {provenance : Provenance} {op : TableOp}

/-! ## The life of a slot -/

/-- The position of a record in the life of its slot. -/
def CapabilityRecord.position (record : CapabilityRecord) : Nat :=
  3 * record.generation.toNat + match record.state with
    | .empty => 0
    | .live | .revoked => 1
    | .retired => 2

/-- The position at which a handle resolves. -/
def CapabilityHandle.position (handle : CapabilityHandle) : Nat := 3 * handle.generation.toNat + 1

variable {r r' : CapabilityRecord} {h : CapabilityHandle} {i : Fin N}
  {table table' : CapabilityTable N}

theorem position_of_occupied (h : r.Occupied) : r.position = 3 * r.generation.toNat + 1 := by
  unfold position
  rcases h with h | h <;> rw [h]

theorem occupied_of_position (he : r.position = h.position) :
    h.generation = r.generation ∧ r.Occupied := by
  unfold position CapabilityHandle.position at he
  have hst : r.Occupied := by
    unfold CapabilityRecord.Occupied
    cases hs : r.state with
    | empty | retired => rw [hs] at he; simp only at he; omega
    | live => exact .inl rfl
    | revoked => exact .inr rfl
  refine ⟨?_, hst⟩
  have hpos := position_of_occupied hst
  unfold position at hpos
  exact UInt32.toNat_inj.1 (by omega)

/-- A handle resolves to a slot exactly when the slot is at the handle's position. -/
theorem resolves_iff_position :
    table.Resolves h i ↔ h.slot.toNat = i.val ∧ (table.slots i).position = h.position := by
  constructor
  · rintro ⟨⟨hs, hg⟩, ho⟩
    refine ⟨hs, ?_⟩
    rw [position_of_occupied ho, ← hg]
    rfl
  · rintro ⟨hs, hp⟩
    obtain ⟨hg, ho⟩ := occupied_of_position hp
    exact ⟨⟨hs, hg⟩, ho⟩

theorem position_retire (h : r.Exhausted) : r.position < position { r with state := .retired } := by
  unfold position
  rw [h.1]
  simp only
  omega

theorem position_revokeLive (r : CapabilityRecord) : r.revokeLive.position = r.position := by
  unfold revokeLive
  split
  · next h =>
    unfold CapabilityRecord.position CapabilityRecord.revoke
    rw [h]
  · rfl

theorem position_release (h : r.Occupied) : r.position < r.release.position := by
  rw [position_of_occupied h]
  unfold release
  split
  · next g hg =>
    have hnat := Generation.toNat_of_next hg
    unfold position
    simp only [empty, hnat]
    omega
  · unfold position
    simp only
    omega

/-! ## No operation moves a slot backwards -/

/-- What the operations do to a record: they leave it, revoke it, or move its slot on. -/
def CapabilityRecord.Ages (r r' : CapabilityRecord) : Prop :=
  r' = r ∨ (r.state = .live ∧ r' = r.revoke) ∨ r.position < r'.position

theorem CapabilityRecord.Ages.of_eq (h : r' = r) : r.Ages r' := Or.inl h

theorem CapabilityRecord.Ages.of_lt (h : r.position < r'.position) : r.Ages r' := Or.inr (.inr h)

theorem position_revoke (h : r.state = .live) : r.revoke.position = r.position := by
  have hlv := position_revokeLive r
  rwa [revokeLive, if_pos h] at hlv

theorem CapabilityRecord.Ages.position_le (h : r.Ages r') : r.position ≤ r'.position := by
  rcases h with rfl | ⟨hlv, rfl⟩ | h
  · exact le_rfl
  · rw [position_revoke hlv]
  · exact Nat.le_of_lt h

theorem CapabilityRecord.Ages.trans (h : r.Ages r') (h' : r'.Ages r'') : r.Ages r'' := by
  rcases h with rfl | ⟨hlv, rfl⟩ | h
  · exact h'
  · rcases h' with rfl | ⟨hag, -⟩ | h'
    · exact .inr (.inl ⟨hlv, rfl⟩)
    · cases hag
    · rw [position_revoke hlv] at h'
      exact .of_lt h'
  · exact .of_lt (Nat.lt_of_lt_of_le h h'.position_le)

/-- The same, of a call that installs at most a record with a provenance of `Q`. -/
def CapabilityRecord.Moves (Q : Provenance → Prop) (r r' : CapabilityRecord) : Prop :=
  r' = r ∨ (r.state = .live ∧ r' = r.revoke) ∨
    r.position < r'.position ∧ (r'.Occupied → Q r'.provenance)

variable {Q : Provenance → Prop}

section Moves

theorem CapabilityRecord.Moves.ages (h : r.Moves Q r') : r.Ages r' :=
  h.imp_right (Or.imp_right And.left)

theorem CapabilityRecord.Moves.of_eq (h : r' = r) : r.Moves Q r' := Or.inl h

theorem CapabilityRecord.Moves.retire (h : r.Exhausted) : r.Moves Q { r with state := .retired } :=
  .inr (.inr ⟨position_retire h, fun ho => by rcases ho with ho | ho <;> cases ho⟩)

theorem CapabilityRecord.Moves.release (h : r.Occupied) {s : CapabilityRecord}
    (hpos : s.position ≤ r.position) : s.Moves Q r.release := by
  refine .inr (.inr ⟨Nat.lt_of_le_of_lt hpos (position_release h), fun ho => ?_⟩)
  unfold CapabilityRecord.release at ho
  split at ho <;> (rcases ho with ho | ho <;> cases ho)

theorem CapabilityRecord.Moves.revokeLive (r : CapabilityRecord) : r.Moves Q r.revokeLive := by
  unfold CapabilityRecord.revokeLive
  split
  · next h => exact .inr (.inl ⟨h, rfl⟩)
  · exact .of_eq rfl

/-- A slot that was moved on is not occupied, if nothing is installed. -/
theorem CapabilityRecord.Moves.trans
    (h : r.Moves (fun _ => False) r') (h' : r'.Moves (fun _ => False) r'') :
    r.Moves (fun _ => False) r'' := by
  rcases h with rfl | ⟨hlv, rfl⟩ | ⟨hlt, hem⟩
  · exact h'
  · rcases h' with rfl | ⟨hag, -⟩ | ⟨hlt, hem⟩
    · exact .inr (.inl ⟨hlv, rfl⟩)
    · cases hag
    · rw [position_revoke hlv] at hlt
      exact .inr (.inr ⟨hlt, hem⟩)
  · rcases h' with rfl | ⟨hlv, rfl⟩ | ⟨hlt', hem'⟩
    · exact .inr (.inr ⟨hlt, hem⟩)
    · exact absurd (.inl hlv) hem
    · exact .inr (.inr ⟨Nat.lt_trans hlt hlt', hem'⟩)

end Moves

/-- Every slot of `table'` is at or past its position in `table`. -/
def Advances (table table' : CapabilityTable N) : Prop :=
  ∀ i, (table.slots i).position ≤ (table'.slots i).position

/-- Every slot of `table'` is what the operations make of it. -/
def Ages (table table' : CapabilityTable N) : Prop := ∀ i, (table.slots i).Ages (table'.slots i)

theorem Ages.refl (table : CapabilityTable N) : Ages table table := fun _ => .of_eq rfl

theorem Ages.trans {t t' t'' : CapabilityTable N} (h : Ages t t') (h' : Ages t' t'') : Ages t t'' :=
  fun i => (h i).trans (h' i)

theorem Ages.advances (h : Ages table table') : Advances table table' := fun i => (h i).position_le

/-- Every slot of `table'` is what a call makes of it that installs with a provenance of `Q`. -/
def Moves (Q : Provenance → Prop) (table table' : CapabilityTable N) : Prop :=
  ∀ i, (table.slots i).Moves Q (table'.slots i)

section Moves

theorem Moves.ages (h : Moves Q table table') : Ages table table' := fun i => (h i).ages

theorem Moves.refl (table : CapabilityTable N) : Moves Q table table := fun _ => .of_eq rfl

theorem Moves.of_retires (h : table.Retires table') : Moves Q table table' := by
  intro i
  rcases h.slot i with e | ⟨hx, e⟩
  · exact .of_eq e
  · rw [e]
    exact .retire hx

theorem Moves.of_revokes {S : Fin N → Prop} (h : table.Revokes table' S) :
    Moves Q table table' := by
  intro i
  by_cases hS : S i
  · rw [h.hit i hS]
    exact .revokeLive _
  · exact .of_eq (h.miss i hS)

theorem Moves.of_releases (h : table.Releases table') : Moves Q table table' := by
  intro i
  rcases h.slot i with e | ⟨hr, e⟩
  · exact .of_eq e
  · rw [e]
    exact .release (.inr hr) le_rfl

/-- Filling a slot moves it strictly forward, to the position of the new handle. -/
theorem CapabilityTable.Fills.position_lt (h : table.Fills table' i r) :
    (table.slots i).position < r.position ∧ r.position = 3 * r.generation.toNat + 1 := by
  have hnat := Generation.toNat_of_next h.next
  have hr := position_of_occupied (.inl h.live)
  refine ⟨?_, hr⟩
  unfold position
  rw [h.empty]
  simp only
  omega

theorem Moves.of_fills (h : table.Fills table' i r) (hQ : Q r.provenance) :
    Moves Q table table' := by
  intro j
  by_cases hj : j = i
  · subst hj
    rw [h.slot]
    exact .inr (.inr ⟨h.position_lt.1, fun _ => hQ⟩)
  · rcases h.others j hj with e | ⟨hx, e⟩
    · exact .of_eq e
    · rw [e]
      exact .retire hx

theorem grant_moves (table : CapabilityTable N) (holder : HolderId) (resource : ResourceRef)
    (rights : Rights) (hQ : Q provenance) :
    Moves Q table (table.grant holder resource rights provenance).2 := by
  rcases grant_cases table holder resource rights provenance with
    ⟨e, -, he⟩ | ⟨-, -, t, ht, he⟩ | ⟨-, i, g, t, hf, he⟩
  · rw [he]
    exact .refl table
  · rw [he]
    exact .of_retires ht
  · rw [he]
    exact .of_fills hf hQ

theorem revokeSlot_revokes (table : CapabilityTable N) (slot : Nat) :
    table.Revokes (table.revokeSlot slot).2 fun i => i.val = slot := by
  by_cases hlt : slot < N
  · have he := revokeSlot_eq table ⟨slot, hlt⟩
    rw [he]
    refine ⟨fun i hi => ?_, fun i hi => ?_⟩
    · obtain rfl : i = ⟨slot, hlt⟩ := Fin.ext hi
      simp
    · exact Function.update_of_ne (fun e => hi (congrArg Fin.val e)) ..
  · unfold CapabilityTable.revokeSlot
    rw [dif_neg hlt]
    exact ⟨fun i hi => absurd (hi ▸ i.isLt) hlt, fun _ _ => rfl⟩

theorem revokeWhere_moves (selected : CapabilityRecord → Bool) (table : CapabilityTable N) :
    Moves Q table (table.revokeWhere selected).2 := by
  rw [revokeWhere_eq]
  intro i
  simp only
  split
  · next h => exact .release (.inr rfl) (Nat.le_of_eq (position_revoke h.1).symm)
  · exact .of_eq rfl

theorem revokeSubtree_moves (table : CapabilityTable N) (handle : CapabilityHandle) :
    Moves Q table (revokeSubtree table handle).2 := by
  unfold revokeSubtree
  split
  · exact .refl table
  simp only
  split
  · exact .refl table
  next inSet _ =>
  rw [revokeSet_eq]
  intro i
  simp only
  split
  · exact .revokeLive _
  · exact .of_eq rfl

theorem revokeTree_moves (selected : CapabilityRecord → Bool) (table : CapabilityTable N) :
    Moves Q table (releaseWhere selected (revokeTrees selected table).2) := by
  have hrv : Moves (fun _ => False) table (revokeTrees selected table).2 := by
    refine Slots.foldl_induction _
      (fun _ (s : (Nat × List ResourceRef) × CapabilityTable N) => Moves (fun _ => False) table s.2)
      ((0, []), table) (.refl table) ?_
    rintro i ⟨⟨revoked, visited⟩, t⟩ ht
    simp only
    split
    · exact ht
    split
    · exact ht
    next handle _ =>
    have hst : Moves (fun _ => False) table (revokeSubtree t handle).2 := fun j =>
      (ht j).trans (revokeSubtree_moves t handle j)
    rcases hr : revokeSubtree t handle with ⟨res, t'⟩
    rw [hr] at hst
    cases res <;> exact hst
  intro i
  have hrl : Moves (fun _ => False) (revokeTrees selected table).2 _ :=
    .of_releases (releaseWhere_releases selected _)
  exact ((hrv i).trans (hrl i)).imp_right (Or.imp_right (And.imp_right fun hem ho => (hem ho).elim))

/-- The provenances a call may install are in `Q`. -/
def TableOp.Installs (Q : Provenance → Prop) (table : CapabilityTable N) : TableOp → Prop
  | .grant _ _ _ provenance => Q provenance
  | .install record => Q record.provenance
  | .delegate _ parent _ _ => ∀ j, table.Resolves parent j →
    (table.slots j).provenance.depth < maxDelegationDepth →
    Q ⟨some parent, (table.slots j).provenance.depth + 1, (table.slots j).provenance.rootHolder⟩
  | _ => True

/-- No call on the table does anything else to a slot. -/
theorem tableStep_moves (table : CapabilityTable N) (hop : op.Installs Q table) :
    Moves Q table (tableStep table op).2 := by
  cases op with
  | grant holder resource rights provenance => exact grant_moves table holder resource rights hop
  | install record =>
    exact grant_moves table record.holder record.resource record.rights hop
  | delegate source parent target rights =>
    change Moves Q table (delegate table source parent target rights).2
    rcases delegate_cases table source parent target rights with
      ⟨e, he⟩ | ⟨j, hres, -, -, -, -, hdp, he⟩
    · rw [he]
      exact .refl table
    · rw [he]
      exact grant_moves table target _ rights (hop j hres hdp)
  | revoke handle => exact .of_revokes (revoke_revokes table handle)
  | revokeSlot slot => exact .of_revokes (revokeSlot_revokes table slot)
  | releaseSlot slot => exact .of_releases (releaseSlot_releases table slot)
  | revokeHolder holder => exact revokeWhere_moves (fun r => r.holder = holder) table
  | revokeResource resource => exact revokeWhere_moves (fun r => r.resource = resource) table
  | revokeResourceId resourceClass id =>
    exact revokeWhere_moves (fun r => r.resource.class = resourceClass ∧ r.resource.id = id) table
  | revokeSubtree handle => exact revokeSubtree_moves table handle
  | revokeHolderTree holder | revokeHolderTreeVisiting holder =>
    exact revokeTree_moves (fun r => r.holder = holder) table
  | revokeResourceTree resourceClass id =>
    exact revokeTree_moves (fun r => r.resource.class = resourceClass ∧ r.resource.id = id) table
  | releaseRevoked => exact .of_releases (releaseRevoked_releases table)

end Moves

theorem Ages.of_releases (h : table.Releases table') : Ages table table' :=
  (Moves.of_releases (Q := fun _ => False) h).ages

theorem tableStep_ages (table : CapabilityTable N) (op : TableOp) :
    Ages table (tableStep table op).2 := by
  refine Moves.ages (tableStep_moves (Q := fun _ => True) table ?_)
  cases op with
  | delegate => exact fun _ _ _ => trivial
  | _ => trivial

/-! ## Freshness over whole histories -/

/-- The position of the slot a handle names, `0` past the end of the table. -/
def slotPosition (table : CapabilityTable N) (slot : Nat) : Nat :=
  if h : slot < N then (table.slots ⟨slot, h⟩).position else 0

theorem slotPosition_eq (table : CapabilityTable N) (i : Fin N) :
    slotPosition table i = (table.slots i).position := by
  unfold slotPosition
  rw [dif_pos i.isLt]

theorem slotPosition_ages (h : Ages table table') (slot : Nat) :
    slotPosition table slot ≤ slotPosition table' slot := by
  unfold slotPosition
  split
  · exact h.advances _
  · exact le_rfl

/-- A handle that was issued before and resolves now resolved all along, to the same capability. -/
theorem resolves_of_ages (hag : Ages table table')
    (hle : h.position ≤ slotPosition table h.slot.toNat) (hres : table'.Resolves h i) :
    table.Resolves h i ∧
      (table'.slots i = table.slots i ∨ table'.slots i = (table.slots i).revoke) := by
  obtain ⟨hsl, hpos⟩ := resolves_iff_position.1 hres
  rw [hsl, slotPosition_eq] at hle
  have hbc := hag.advances i
  refine ⟨resolves_iff_position.2 ⟨hsl, by omega⟩, ?_⟩
  rcases hag i with heq | ⟨-, heq⟩ | hlt
  · exact .inl heq
  · exact .inr heq
  · omega

/-- A handle `grant` returns is ahead of where its slot was, and the slot is now there. -/
theorem grant_fresh {holder : HolderId} {resource : ResourceRef} {rights : Rights}
    (hg : table.grant holder resource rights provenance = (.ok h, table')) :
    slotPosition table h.slot.toNat < h.position ∧
      h.position ≤ slotPosition table' h.slot.toNat := by
  obtain ⟨-, i, hf, hn⟩ := grant_ok hg
  obtain ⟨hlt, heq⟩ := hf.position_lt
  rw [hn.1, slotPosition_eq, slotPosition_eq, hf.slot]
  exact ⟨Nat.lt_of_lt_of_eq hlt heq, Nat.le_of_eq heq.symm⟩

theorem tableStep_issued (hi : (tableStep table op).1.issued = some h) :
    ∃ holder resource rights provenance,
      table.grant holder resource rights provenance = (.ok h, (tableStep table op).2) := by
  have hgr : ∀ holder resource rights provenance,
      (TableResult.handle (table.grant holder resource rights provenance).1).issued = some h →
      table.grant holder resource rights provenance =
        (.ok h, (table.grant holder resource rights provenance).2) := by
    intro holder resource rights provenance hi
    cases hr : (table.grant holder resource rights provenance).1 with
    | error e => rw [hr] at hi; cases hi
    | ok h' =>
      rw [hr] at hi
      cases hi
      exact Prod.ext hr rfl
  cases op with
  | grant holder resource rights provenance =>
    exact ⟨_, _, _, _, hgr holder resource rights provenance hi⟩
  | install record => exact ⟨_, _, _, _, hgr _ _ _ _ hi⟩
  | delegate source parent target rights =>
    change (TableResult.handle (delegate table source parent target rights).1).issued = some h at hi
    change ∃ holder resource rights' provenance, table.grant holder resource rights' provenance =
        (.ok h, (delegate table source parent target rights).2)
    rcases delegate_cases table source parent target rights with
      ⟨e, he⟩ | ⟨j, -, -, -, -, -, -, he⟩
    · rw [he] at hi
      cases hi
    · rw [he] at hi ⊢
      exact ⟨_, _, _, _, hgr _ _ _ _ hi⟩
  | _ => cases hi

theorem run_advances (table : CapabilityTable N) (ops : List TableOp) :
    Advances table (run tableStep table ops) :=
  (run_invariant tableStep (P := Ages table) (Ages.refl table)
    (fun t op h => h.trans (tableStep_ages t op)) ops).advances

/-- A handle that stopped resolving never resolves again. -/
theorem resolves_never_again (hres : table.Resolves h i) (hadv : Advances table table')
    (hgn : ¬table'.Resolves h i) (ops : List TableOp) (j : Fin N) :
    ¬(run tableStep table' ops).Resolves h j := by
  intro hag
  obtain ⟨hs, hp⟩ := resolves_iff_position.1 hres
  obtain ⟨hs', hp'⟩ := resolves_iff_position.1 hag
  obtain rfl : j = i := Fin.ext (hs'.symm.trans hs)
  have h1 := hadv j
  have h2 := run_advances table' ops j
  exact hgn (resolves_iff_position.2 ⟨hs, by omega⟩)

/-- `release_slot` on an occupied slot puts every handle to it out of use. -/
theorem releaseSlot_not_resolves (hr : (table.releaseSlot i).1) (h : CapabilityHandle) :
    ¬(table.Resolves h i ∧ (table.releaseSlot i).2.Resolves h i) := by
  rintro ⟨hres, hres'⟩
  rw [releaseSlot_eq] at hr hres'
  have hrev : (table.slots i).state = .revoked := of_decide_eq_true hr
  have hlt := position_release (.inr hrev)
  obtain ⟨-, hp⟩ := resolves_iff_position.1 hres
  obtain ⟨-, hp'⟩ := resolves_iff_position.1 hres'
  simp only [Function.update_self, CapabilityRecord.releaseRevoked, if_pos hrev] at hp'
  omega

/-- **Handles are capabilities for life.** Over every history of calls on a fresh table of any
size, failing ones included: no two calls return the same handle; and once a handle that resolved
has stopped resolving, as it has when its slot was released, `record` and `authorize` fail on it
for ever, for every holder, resource and right. -/
theorem handles_never_reissued (ops : List TableOp) :
    (issued TableResult.issued (trace tableStep (CapabilityTable.new : CapabilityTable N) ops)).Nodup
    ∧ (∀ (mid later : List TableOp) (h : CapabilityHandle) (i : Fin N),
        let table := run tableStep (CapabilityTable.new : CapabilityTable N) ops
        let after := run tableStep (run tableStep table mid) later
        table.Resolves h i → ¬(run tableStep table mid).Resolves h i →
        (∀ r, after.record h ≠ .ok r) ∧
        ∀ holder resource rights r, after.authorize holder h resource rights ≠ .ok r)
    ∧ (∀ (later : List TableOp) (h : CapabilityHandle) (i : Fin N),
        let table := run tableStep (CapabilityTable.new : CapabilityTable N) ops
        let after := run tableStep (table.releaseSlot i).2 later
        table.Resolves h i → (table.releaseSlot i).1 = true →
        (∀ r, after.record h ≠ .ok r) ∧
        ∀ holder resource rights r, after.authorize holder h resource rights ≠ .ok r) := by
  -- a handle that resolves to no slot is refused by both lookups
  have hrf : ∀ (table : CapabilityTable N) h,
      (∀ j, ¬table.Resolves h j) → (∀ r, table.record h ≠ .ok r) ∧
        ∀ holder resource rights r, table.authorize holder h resource rights ≠ .ok r := by
    intro table h hn
    refine ⟨fun r hr => ?_, fun holder resource rights r hr => ?_⟩
    · obtain ⟨j, hj, -⟩ := record_ok.1 hr
      exact hn j hj
    · obtain ⟨j, hj⟩ := authorize_ok hr
      exact hn j hj
  refine ⟨?_, ?_, ?_⟩
  · refine issued_nodup tableStep TableResult.issued (fun h => h.slot.toNat)
      CapabilityHandle.position slotPosition
      (fun table op => slotPosition_ages (tableStep_ages table op)) ?_ _ ops
    intro table op h hi
    obtain ⟨holder, resource, rights, provenance, hg⟩ := tableStep_issued hi
    exact grant_fresh hg
  · intro mid later h i table after hres hgn
    exact hrf after h (resolves_never_again hres (run_advances table mid) hgn later)
  · intro later h i table after hres hrel
    refine hrf after h (resolves_never_again hres
      (Ages.of_releases (releaseSlot_releases table i)).advances ?_ later)
    exact fun hres' => releaseSlot_not_resolves hrel h ⟨hres, hres'⟩

end CleanSlate.Capability
