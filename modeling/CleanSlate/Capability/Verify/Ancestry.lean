import CleanSlate.Capability.Verify.Freshness

/-!
# Who may revoke

`authorize_revoke` walks up at most `MAX_DELEGATION_DEPTH` parents. That reaches every ancestor of
every record, revoked ones included: a parent handle still resolves to the record it was made
from, which is one level up, or to nothing.
-/

namespace CleanSlate.Capability

open Lib
open CapabilityTable

variable {N : Nat}

/-- What `Provenance::root` or, from a record of the table, `Provenance::child_of` makes. -/
def Derived (table : CapabilityTable N) (provenance : Provenance) : Prop :=
  (∃ holder, provenance = .root holder) ∨ ∃ handle j, table.Resolves handle j ∧
      Provenance.childOf handle (table.slots j).provenance = .ok provenance

/-- A call that installs nothing with another provenance. -/
def TableOp.Derives (table : CapabilityTable N) : TableOp → Prop
  | .grant _ _ _ provenance => Derived table provenance
  | .install record => Derived table record.provenance
  | _ => True

/-- The tables that such calls reach. -/
inductive Reachable : CapabilityTable N → Prop
  | new : Reachable .new
  | step {table : CapabilityTable N} (h : Reachable table) (op : TableOp)
      (derives : op.Derives table) : Reachable (tableStep table op).2

/-- The parent of every record is one level up, or has gone for good. -/
structure Linked (table : CapabilityTable N) : Prop where
  depth : ∀ i, (table.slots i).Occupied → (table.slots i).provenance.depth ≤ maxDelegationDepth
  issued : ∀ i p, (table.slots i).Occupied → (table.slots i).provenance.parent = some p →
    p.position ≤ slotPosition table p.slot.toNat
  level : ∀ j i, (table.slots i).Occupied → table.ParentOf j i →
    (table.slots j).provenance.depth + 1 = (table.slots i).provenance.depth

variable {table table' : CapabilityTable N}

/-- What is derived from a table fits every table the calls make of it. -/
theorem Derived.fits {provenance : Provenance} (h : Derived table provenance)
    (hag : Ages table table') :
    provenance.depth ≤ maxDelegationDepth ∧ ∀ p, provenance.parent = some p →
      p.position ≤ slotPosition table' p.slot.toNat ∧
      ∀ j, table'.Resolves p j → (table'.slots j).provenance.depth + 1 = provenance.depth := by
  rcases h with ⟨holder, rfl⟩ | ⟨handle, j, hres, hch⟩
  · exact ⟨Nat.zero_le _, fun p hp => by cases hp⟩
  obtain ⟨hdp, rfl⟩ := Provenance.childOf_ok hch
  refine ⟨hdp, fun p hp => ?_⟩
  cases hp
  obtain ⟨hsl, hpos⟩ := resolves_iff_position.1 hres
  have hle : handle.position ≤ slotPosition table handle.slot.toNat := by
    rw [hsl, slotPosition_eq, hpos]
  refine ⟨Nat.le_trans hle (slotPosition_ages hag _), fun k hk => ?_⟩
  obtain ⟨hbf, heq | heq⟩ := resolves_of_ages hag hle hk
  · rw [hbf.1.unique hres.1] at heq ⊢
    rw [heq]
  · rw [hbf.1.unique hres.1] at heq ⊢
    rw [heq]
    rfl

theorem Linked.moves (h : Linked table) (hmv : Moves (Derived table) table table') :
    Linked table' := by
  -- an occupied slot holds what it held, live or revoked, or a record that was just installed
  have hsl : ∀ i, (table'.slots i).Occupied →
      (table.slots i).Occupied ∧ (table'.slots i).provenance = (table.slots i).provenance ∨
      Derived table (table'.slots i).provenance := by
    intro i hi
    rcases hmv i with heq | ⟨hlv, heq⟩ | ⟨-, hnew⟩
    · rw [heq] at hi ⊢
      exact .inl ⟨hi, rfl⟩
    · rw [heq]
      exact .inl ⟨.inl hlv, rfl⟩
    · exact .inr (hnew hi)
  have hag := hmv.ages
  refine ⟨fun i hi => ?_, fun i p hi hp => ?_, fun j i hi hj => ?_⟩
  · rcases hsl i hi with ⟨hold, heq⟩ | hnew
    · rw [heq]
      exact h.depth i hold
    · exact (hnew.fits hag).1
  · rcases hsl i hi with ⟨hold, heq⟩ | hnew
    · rw [heq] at hp
      exact Nat.le_trans (h.issued i p hold hp) (slotPosition_ages hag _)
    · exact ((hnew.fits hag).2 p hp).1
  · obtain ⟨p, hp, hres⟩ := hj
    rcases hsl i hi with ⟨hold, heq⟩ | hnew
    · rw [heq] at hp ⊢
      obtain ⟨hbf, hsm | hrv⟩ := resolves_of_ages hag (h.issued i p hold hp) hres
      · rw [hsm]
        exact h.level j i hold ⟨p, hp, hbf⟩
      · rw [hrv]
        exact h.level j i hold ⟨p, hp, hbf⟩
    · exact ((hnew.fits hag).2 p hp).2 j hres

theorem Reachable.linked (h : Reachable table) : Linked table := by
  induction h with
  | new =>
    have hem : ∀ i, ¬((CapabilityTable.new : CapabilityTable N).slots i).Occupied := by
      rintro i (hi | hi) <;> cases hi
    exact ⟨fun i hi => absurd hi (hem i), fun i _ hi => absurd hi (hem i),
      fun _ i hi => absurd hi (hem i)⟩
  | @step table _ op derives ih =>
    refine ih.moves (tableStep_moves table ?_)
    cases op with
    | grant | install => exact derives
    | delegate source parent target rights =>
      exact fun j hres hdp => .inr ⟨parent, j, hres, Provenance.childOf_eq_ok hdp⟩
    | _ => trivial

/-- The walk finds a holder exactly among the ancestors. -/
theorem holdsAncestor_iff (h : Linked table) (actor : HolderId) {steps : Nat} {i : Fin N}
    (hi : (table.slots i).Occupied) (hst : (table.slots i).provenance.depth ≤ steps) :
    holdsAncestor table actor steps (table.slots i).provenance.parent ↔
      ∃ k, table.ParentOf k i ∧ ∃ j, table.DescendsFrom j k ∧ (table.slots j).holder = actor := by
  induction steps generalizing i with
  | zero =>
    constructor
    · intro hhl
      simp [holdsAncestor] at hhl
    · rintro ⟨k, hk, -⟩
      have hlv := h.level k i hi hk
      omega
  | succ steps ih =>
    cases hp : (table.slots i).provenance.parent with
    | none =>
      constructor
      · intro hhl
        simp [holdsAncestor] at hhl
      · rintro ⟨k, ⟨p, hp', -⟩, -⟩
        cases hp.symm.trans hp'
    | some p =>
      cases hrc : table.record p with
      | error error =>
        constructor
        · intro hhl
          simp [holdsAncestor, hrc] at hhl
        · rintro ⟨k, ⟨p', hp', hres⟩, -⟩
          obtain rfl : p = p' := Option.some.inj (hp.symm.trans hp')
          cases hrc.symm.trans (record_ok.2 ⟨k, hres, rfl⟩)
      | ok r =>
        obtain ⟨k, hres, rfl⟩ := record_ok.1 hrc
        have hlv := h.level k i hi ⟨p, hp, hres⟩
        have hwl := ih hres.2 (by omega)
        simp only [holdsAncestor, hrc, Bool.or_eq_true, decide_eq_true_eq, hwl]
        -- the parent is the one slot its handle resolves to
        have hpr : ∀ k', table.ParentOf k' i ↔ k' = k := by
          intro k'
          constructor
          · rintro ⟨p', hp', hres'⟩
            obtain rfl : p = p' := Option.some.inj (hp.symm.trans hp')
            exact hres'.1.unique hres.1
          · rintro rfl
            exact ⟨p, hp, hres⟩
        simp only [hpr, exists_eq_left]
        constructor
        · rintro (hhd | ⟨k', hk', j, hj, hhd⟩)
          · exact ⟨k, .refl, hhd⟩
          · exact ⟨j, hj.tail hk', hhd⟩
        · rintro ⟨j, hj, hhd⟩
          rcases Relation.ReflTransGen.cases_tail hj with rfl | ⟨k', hj, hk'⟩
          · exact .inl hhd
          · exact .inr ⟨k', hk', j, hj, hhd⟩

/-- **Who may revoke.** On every table that is reached, `authorize_revoke` succeeds exactly when the
handle resolves and the actor holds the record or one of its ancestors. -/
theorem authorizeRevoke_ok_iff (h : Reachable table) (actor : HolderId)
    (handle : CapabilityHandle) :
    authorizeRevoke table actor handle = .ok () ↔
      ∃ i, table.Resolves handle i ∧
        ∃ j, table.DescendsFrom j i ∧ (table.slots j).holder = actor := by
  cases hrc : table.record handle with
  | error error =>
    constructor
    · intro hok
      simp [authorizeRevoke, hrc] at hok
    · rintro ⟨i, hres, -⟩
      cases hrc.symm.trans (record_ok.2 ⟨i, hres, rfl⟩)
  | ok r =>
    obtain ⟨i, hres, rfl⟩ := record_ok.1 hrc
    have hln := h.linked
    have hok : authorizeRevoke table actor handle = .ok () ↔ (table.slots i).holder = actor ∨
        holdsAncestor table actor maxDelegationDepth (table.slots i).provenance.parent := by
      simp only [authorizeRevoke, hrc]
      by_cases hhl : (table.slots i).holder = actor <;> simp [hhl]
    rw [hok, holdsAncestor_iff hln actor hres.2 (hln.depth i hres.2)]
    constructor
    · rintro (hhl | ⟨k, hk, j, hj, hhl⟩)
      · exact ⟨i, hres, i, .refl, hhl⟩
      · exact ⟨i, hres, j, hj.tail hk, hhl⟩
    · rintro ⟨i', hres', j, hj, hhl⟩
      obtain rfl := hres'.1.unique hres.1
      rcases Relation.ReflTransGen.cases_tail hj with rfl | ⟨k, hj, hk⟩
      · exact .inl hhl
      · exact .inr ⟨k, hk, j, hj, hhl⟩

/-- A grant to holder 1 and what it delegated to holder 2. -/
def delegatedOnce : CapabilityTable 2 :=
  run tableStep .new [.grant ⟨1⟩ ⟨.persistentObject, 7, 0⟩ (Rights.read.union .delegate) (.root ⟨1⟩),
    .delegate ⟨1⟩ ⟨0, 1⟩ ⟨2⟩ .read]

/-- Holder 1 may revoke what holder 2 holds. -/
theorem authorizeRevoke_ok_delegated : ∃ i, delegatedOnce.Resolves ⟨1, 1⟩ i ∧
    ∃ j, delegatedOnce.DescendsFrom j i ∧ (delegatedOnce.slots j).holder = ⟨1⟩ := by
  have hrc : Reachable delegatedOnce := by
    refine .step (.step .new _ ?_) _ trivial
    exact Or.inl ⟨_, rfl⟩
  exact (authorizeRevoke_ok_iff hrc ⟨1⟩ ⟨1, 1⟩).1 (by decide +kernel)

end CleanSlate.Capability
