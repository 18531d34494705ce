import CleanSlate.Capability.Verify.Forest

/-!
# Subtree revocation is exact

On a rooted table of bounded depth the bounded fixpoint of `revoke_subtree` is the saturation of
the parent-pointer forest of the live records, so it collects exactly the handle's record and its
live descendants, whatever slots they are stored in.
-/

namespace CleanSlate.Capability

open Lib Slots Function
open CapabilityTable

variable {N : Nat} {root i : Fin N} {t t' t'' : CapabilityTable N} {S S' : Fin N → Prop}

/-- What every delegation hop keeps: the resource and the root holder, with the depth one more. -/
structure Lineage (parent child : CapabilityRecord) : Prop where
  resource : child.resource = parent.resource
  rootHolder : child.provenance.rootHolder = parent.provenance.rootHolder
  depth : child.provenance.depth = parent.provenance.depth + 1

/-- The shape every table of the kernel keeps: live records have live parents of the same lineage,
and no chain is longer than `MAX_DELEGATION_DEPTH`. -/
structure WellRooted (table : CapabilityTable N) : Prop where
  rooted : table.Rooted Lineage
  depth : ∀ i, (table.slots i).provenance.depth ≤ maxDelegationDepth

/-- The parent pointers the fixpoint of `revoke_subtree` follows: those of live records. -/
def liveParent (table : CapabilityTable N) (i : Fin N) : Option (Fin N) :=
  if table.Live i then
    match (table.slots i).provenance.parent with
    | none => none
    | some p => (slotForHandle table p).toOption
  else none

variable {table : CapabilityTable N} {p : CapabilityHandle}

theorem slotForHandle_ok {h : CapabilityHandle} :
    slotForHandle table h = .ok i ↔ table.Resolves h i := by
  unfold slotForHandle
  cases hr : table.record h with
  | error e =>
    constructor
    · intro h
      cases h
    · intro hi
      rw [record_of_resolves hi] at hr
      cases hr
  | ok r =>
    obtain ⟨j, hj, -⟩ := record_ok.1 hr
    constructor
    · intro h
      obtain rfl : j = i := Fin.ext (hj.1.1.symm.trans (slotIndex_ok.1 h))
      exact hj
    · intro hi
      exact slotIndex_ok.2 hi.1.1

theorem liveParent_eq_some {j : Fin N} :
    liveParent table i = some j ↔ table.Live i ∧ table.ParentOf j i := by
  unfold liveParent ParentOf
  by_cases hl : table.Live i
  · cases hp : (table.slots i).provenance.parent with
    | none => simp
    | some p =>
      have hs : slotForHandle table p = .ok j ↔ table.Resolves p j := slotForHandle_ok
      simp only [hl, true_and, Option.some.injEq, exists_eq_left']
      rw [← hs]
      cases slotForHandle table p with
      | error | ok => simp [Except.toOption]
  · simp [hl]

variable {E : CapabilityRecord → CapabilityRecord → Prop}

section
variable (h : table.Rooted E)

include h in
/-- On a rooted table no parent lookup aborts, so a pass is a sweep of the live forest. -/
theorem subtreePass_eq (inSet : Fin N → Bool) :
    subtreePass table inSet = .ok (Forest.sweep (liveParent table) inSet) := by
  refine (congrArg (List.foldlM · _ _) (funext₂ ?_)).trans List.foldlM_pure
  rintro ⟨inSet, added⟩ i
  change _ = Except.ok _
  unfold Forest.visit liveParent CapabilityTable.recordAt
  by_cases hi : inSet i
  · simp only [hi, if_true]
  by_cases hl : table.Live i
  · have hs : (table.slots i).state = .live := hl
    cases hp : (table.slots i).provenance.parent with
    | none => simp only [hi, hs, hl, hp, Bool.false_eq_true, if_false, if_true, ne_eq, not_true]
    | some p =>
      obtain ⟨j, hr, -, -⟩ := h i hl p hp
      have hj := slotForHandle_ok.2 hr
      simp only [hi, hs, hl, hp, hj, Except.toOption, Bool.false_eq_true, if_false, if_true, ne_eq,
        not_true]
      split <;> rfl
  · have hs : (table.slots i).state ≠ .live := hl
    simp only [hi, hs, hl, Bool.false_eq_true, if_false, if_true, ne_eq, not_false_eq_true]

include h in
theorem subtreePasses_eq (k : Nat) (inSet : Fin N → Bool) :
    subtreePasses table k inSet = .ok (Forest.saturate (liveParent table) k inSet) := by
  induction k generalizing inSet with
  | zero => rfl
  | succ k ih =>
    unfold subtreePasses Forest.saturate
    rw [subtreePass_eq h]
    simp only
    split
    · exact ih _
    · rfl

include h in
/-- Below a live record, the live forest and the parent chains of live records agree. -/
theorem descends_liveParent_iff (hroot : table.Live root) :
    Forest.Descends (liveParent table) root i ↔ table.Live i ∧ table.DescendsFrom root i := by
  constructor
  · intro hd
    induction hd with
    | refl => exact ⟨hroot, Relation.ReflTransGen.refl⟩
    | tail _ hc ih =>
      obtain ⟨hl, hp⟩ := liveParent_eq_some.1 hc
      exact ⟨hl, ih.2.tail hp⟩
  · rintro ⟨hi, hd⟩
    induction hd with
    | refl => exact Relation.ReflTransGen.refl
    | tail _ hc ih =>
      exact (ih (h.live_parent hi hc).1).tail (liveParent_eq_some.2 ⟨hi, hc⟩)

include h in
theorem descends_liveParent_of_not_live (hroot : ¬table.Live root)
    (hd : Forest.Descends (liveParent table) root i) : i = root := by
  rcases Relation.ReflTransGen.cases_head hd with he | ⟨j, hc, -⟩
  · exact he.symm
  · obtain ⟨hl, hp⟩ := liveParent_eq_some.1 hc
    exact absurd (h.live_parent hl hp).1 hroot

end

/-- **`revoke_subtree` on a handle that resolves.** It succeeds, revokes exactly the live nodes of
the live forest below the handle's slot, and counts them. -/
theorem revokeSubtree_eq (h : WellRooted table) (hr : table.Resolves p root) : ∃ inSet,
      (∀ i, inSet i ↔ Forest.Descends (liveParent table) root i) ∧
      revokeSubtree table p = (.ok (revokeSet table inSet).1, (revokeSet table inSet).2) := by
  refine ⟨Forest.saturate (liveParent table) (maxDelegationDepth + 1)
    (update (fun _ => false) root true), ?_, ?_⟩
  · have hrn : ∀ i j, liveParent table i = some j →
        (table.slots i).provenance.depth = (table.slots j).provenance.depth + 1 := by
      intro i j hij
      obtain ⟨hl, hp⟩ := liveParent_eq_some.1 hij
      exact (h.rooted.live_parent hl hp).2.depth
    refine Forest.saturate_spec (liveParent table) hrn (maxDelegationDepth + 1) 0 _
      (update_self ..) ?_ ?_ ?_
    · intro i hi
      by_cases he : i = root
      · subst he
        exact Relation.ReflTransGen.refl
      · rw [update_of_ne he] at hi
        cases hi
    · intro i hd hle
      rcases Forest.rank_lt_of_descends (liveParent table) hrn hd with rfl | hlt
      · exact update_self ..
      · exact absurd hle (by omega)
    · intro i _
      have := h.depth i
      omega
  · unfold revokeSubtree
    rw [slotForHandle_ok.2 hr]
    simp only [subtreePasses_eq h.rooted]

theorem revokeSubtree_error (hn : ∀ i, ¬table.Resolves p i) :
    ∃ e, revokeSubtree table p = (.error e, table) := by
  unfold revokeSubtree
  cases hs : slotForHandle table p with
  | error e => exact ⟨e, rfl⟩
  | ok i => exact absurd (slotForHandle_ok.1 hs) (hn i)

theorem revokeSet_revokes (table : CapabilityTable N) (inSet : Fin N → Bool) :
    table.Revokes (revokeSet table inSet).2 fun i => inSet i := by
  rw [revokeSet_eq]
  refine ⟨fun i hi => ?_, fun i hi => ?_⟩
  · simp only [hi, if_true]
  · simp only [hi, Bool.false_eq_true, if_false]

/-- **Subtree revocation, as a change of the table.** Whatever `revoke_subtree` is given, it leaves
a table in which some set closed under live children was revoked; every record revoked is live and
lies below the handle's slot, and the count is the number of records that stopped being live. -/
theorem revokeSubtree_spec (h : WellRooted table) (p : CapabilityHandle) :
    ∃ S, table.Revokes (revokeSubtree table p).2 S ∧
      (∀ i j, table.Live i → table.ParentOf j i → S j → S i) ∧
      (∀ i, S i → table.Live i → ∃ j, table.Resolves p j ∧ table.DescendsFrom j i) ∧
      (∀ j, table.Resolves p j → S j) ∧
      (match (revokeSubtree table p).1 with
        | .ok count => count
        | .error _ => 0) = count id (fun i =>
          decide (table.Live i) && !decide ((revokeSubtree table p).2.Live i)) := by
  by_cases hres : ∃ root, table.Resolves p root
  · obtain ⟨root, hr⟩ := hres
    obtain ⟨inSet, hset, heq⟩ := revokeSubtree_eq h hr
    have hrev := revokeSet_revokes table inSet
    rw [heq]
    refine ⟨fun i => inSet i, hrev, ?_, ?_, ?_, ?_⟩
    · intro i j hi hp hj
      exact (hset i).2 (((hset j).1 hj).tail (liveParent_eq_some.2 ⟨hi, hp⟩))
    · intro i hi hl
      refine ⟨root, hr, ?_⟩
      have hd := (hset i).1 hi
      by_cases hroot : table.Live root
      · exact ((descends_liveParent_iff h.rooted hroot).1 hd).2
      · obtain rfl := descends_liveParent_of_not_live h.rooted hroot hd
        exact Relation.ReflTransGen.refl
    · intro j hj
      obtain rfl := hr.1.unique hj.1
      exact (hset root).2 Relation.ReflTransGen.refl
    · have hlv := hrev.live_iff
      rw [revokeSet_eq] at hlv ⊢
      refine count_congr fun i => ?_
      have hi := hlv i
      by_cases hl : table.Live i <;> by_cases hs : inSet i <;> simp [hl, hs, hi]
  · have hn : ∀ i, ¬table.Resolves p i := fun i hi => hres ⟨i, hi⟩
    obtain ⟨e, he⟩ := revokeSubtree_error hn
    rw [he]
    refine ⟨fun _ => False, ⟨fun _ hf => hf.elim, fun _ _ => rfl⟩, fun _ _ _ _ hf => hf,
      fun _ hf => hf.elim, fun j hj => absurd hj (hn j), ?_⟩
    symm
    rw [count_eq_zero]
    intro i
    cases decide (table.Live i) <;> rfl

/-! ## Sweeps of subtrees -/

namespace CapabilityTable

theorem revokeLive_idem (r : CapabilityRecord) : r.revokeLive.revokeLive = r.revokeLive := by
  unfold CapabilityRecord.revokeLive
  by_cases hl : r.state = .live
  · rw [if_pos hl, if_neg (by simp [CapabilityRecord.revoke])]
  · rw [if_neg hl, if_neg hl]

theorem Revokes.trans (h : t.Revokes t' S) (h' : t'.Revokes t'' S') :
    t.Revokes t'' fun i => S i ∨ S' i := by
  refine ⟨fun i hi => ?_, fun i hi => ?_⟩
  · by_cases hS : S i
    · by_cases hS' : S' i
      · rw [h'.hit i hS', h.hit i hS, revokeLive_idem]
      · rw [h'.miss i hS', h.hit i hS]
    · have hS' : S' i := hi.resolve_left hS
      rw [h'.hit i hS', h.miss i hS]
  · rw [h'.miss i fun hS' => hi (.inr hS'), h.miss i fun hS => hi (.inl hS)]

theorem Revokes.refl (t : CapabilityTable N) : t.Revokes t fun _ => False :=
  ⟨fun _ hf => hf.elim, fun _ _ => rfl⟩

theorem Revokes.count_trans (h : t.Revokes t' S) (h' : t'.Revokes t'' S') :
    count id (fun i => decide (t.Live i) && !decide (t'.Live i)) +
        count id (fun i => decide (t'.Live i) && !decide (t''.Live i)) =
      count id fun i => decide (t.Live i) && !decide (t''.Live i) := by
  have hor := count_or (f := fun i => i) (p := fun i => decide (t.Live i) && !decide (t'.Live i))
    (q := fun i => decide (t'.Live i) && !decide (t''.Live i)) (by
      rintro i ⟨hp, hq⟩
      simp only [Bool.and_eq_true, Bool.not_eq_true', decide_eq_true_eq, decide_eq_false_iff_not]
        at hp hq
      exact hp.2 hq.1)
  refine Eq.trans ?_ (hor.symm.trans ?_)
  · exact congrArg₂ (· + ·) (count_congr fun i => rfl) (count_congr fun i => rfl)
  · refine count_congr fun i => ?_
    have h1 : t'.Live i → t.Live i := fun hl => ((h.live_iff i).1 hl).1
    have h2 : t''.Live i → t'.Live i := fun hl => ((h'.live_iff i).1 hl).1
    by_cases ht : t.Live i <;> by_cases ht' : t'.Live i <;> by_cases ht'' : t''.Live i <;> simp_all

/-- A live slot of a table with 16-bit slot numbers has a handle that resolves to it. -/
theorem handleAt_of_live (hl : table.Live i) :
    ∃ p, table.handleAt i = some p ∧ (N ≤ 65536 → table.Resolves p i) := by
  have hs : (table.slots i).state ≠ .empty := by
    rw [show (table.slots i).state = .live from hl]
    decide
  unfold CapabilityTable.handleAt
  rw [dif_pos i.isLt]
  simp only [Fin.eta, if_neg hs]
  refine ⟨_, rfl, fun hN => ⟨⟨?_, rfl⟩, hl.occupied⟩⟩
  have hlt : i.val < 65536 := Nat.lt_of_lt_of_le i.isLt hN
  simp only [slotAsU16, if_pos hlt]
  exact UInt16.toNat_ofNat_of_lt' hlt

end CapabilityTable

theorem WellRooted.revokes {table' : CapabilityTable N} (h : WellRooted table)
    (hr : table.Revokes table' S) (hcl : ∀ i j, table.Live i → table.ParentOf j i → S j → S i) :
    WellRooted table' := by
  refine ⟨h.rooted.revokes hr hcl, fun i => ?_⟩
  rw [(hr.frame i).2.2.2]
  exact h.depth i

/-- What the first sweep of a holder or resource revocation has done when it reaches slot `k`: a
set closed under children is revoked, holding the selected live slots passed so far and nothing
that does not lie below a selected live slot. -/
structure SweptTo (selected : CapabilityRecord → Bool) (table : CapabilityTable N) (k : Nat)
    (revoked : Nat) (table' : CapabilityTable N) (S : Fin N → Prop) : Prop where
  revokes : table.Revokes table' S
  closed : ∀ i j, table.Live i → table.ParentOf j i → S j → S i
  count : revoked = Slots.count id fun i => decide (table.Live i) && !decide (table'.Live i)
  complete : N ≤ 65536 → ∀ i : Fin N, i.val < k → table.Live i → selected (table.slots i) → S i
  sound : N ≤ 65536 → ∀ i, S i → table.Live i →
    ∃ j, table.Live j ∧ selected (table.slots j) ∧ table.DescendsFrom j i

/-- One subtree revocation carries the sweep past the slot it starts from. -/
theorem SweptTo.step {selected : CapabilityRecord → Bool} (h : WellRooted table) {revoked : Nat}
    (hs : SweptTo selected table i revoked t S)
    (hli : t.Live i) (hsel : selected (t.slots i)) (hp : N ≤ 65536 → t.Resolves p i) :
    ∃ S', SweptTo selected table (i + 1) (revoked + match (revokeSubtree t p).1 with
        | .ok count => count
        | .error _ => 0) (revokeSubtree t p).2 S' := by
  have ht : WellRooted t := h.revokes hs.revokes hs.closed
  obtain ⟨S', hrev, hcl, hbl, hroot, hcn⟩ := revokeSubtree_spec ht p
  obtain ⟨hlt, hnS⟩ := (hs.revokes.live_iff i).1 hli
  have hsm := hs.revokes.slot_of_live hli
  refine ⟨fun k => S k ∨ S' k, hs.revokes.trans hrev, ?_, ?_, ?_, ?_⟩
  · intro k j hk hpar hj
    rcases hj with hj | hj
    · exact .inl (hs.closed k j hk hpar hj)
    · by_cases hSk : S k
      · exact .inl hSk
      · exact .inr (hcl k j ((hs.revokes.live_iff k).2 ⟨hk, hSk⟩)
          ((hs.revokes.parentOf_iff j k).2 hpar) hj)
  · rw [hcn, hs.count]
    exact hs.revokes.count_trans hrev
  · intro hN k hk hlk hsl
    rcases Nat.lt_succ_iff_lt_or_eq.1 hk with hlt | heq
    · exact .inl (hs.complete hN k hlt hlk hsl)
    · obtain rfl := Fin.ext heq
      exact .inr (hroot k (hp hN))
  · rintro hN k (hk | hk) hlk
    · exact hs.sound hN k hk hlk
    · by_cases hSk : S k
      · exact hs.sound hN k hSk hlk
      · obtain ⟨j, hj, hd⟩ := hbl k hk ((hs.revokes.live_iff k).2 ⟨hlk, hSk⟩)
        obtain rfl := hj.1.unique (hp hN).1
        refine ⟨j, hlt, by rw [← hsm]; exact hsel, ?_⟩
        exact Relation.ReflTransGen.mono (fun a b hab => (hs.revokes.parentOf_iff a b).1 hab) _ _ hd

/-- The first sweep of a holder or resource revocation revokes the selected live records and what
lies below them. -/
theorem revokeTrees_spec (selected : CapabilityRecord → Bool) (h : WellRooted table) :
    ∃ S, SweptTo selected table N (revokeTrees selected table).1.1
      (revokeTrees selected table).2 S := by
  refine foldl_induction _ (fun k (s : (Nat × List ResourceRef) × CapabilityTable N) =>
    ∃ S, SweptTo selected table k s.1.1 s.2 S) ((0, []), table) ?_ ?_
  · refine ⟨fun _ => False, Revokes.refl table, fun _ _ _ _ hf => hf, ?_,
      fun _ _ hk => absurd hk (Nat.not_lt_zero _), fun _ _ hf => hf.elim⟩
    symm
    rw [count_eq_zero]
    intro i
    cases decide (table.Live i) <;> rfl
  · rintro i ⟨⟨revoked, visited⟩, t⟩ ⟨S, hs⟩
    simp only [CapabilityTable.recordAt]
    by_cases hsk : (t.slots i).state ≠ .live ∨ (!selected (t.slots i))
    · rw [if_pos hsk]
      refine ⟨S, hs.revokes, hs.closed, hs.count, ?_, hs.sound⟩
      intro hN k hk hlk hsl
      rcases Nat.lt_succ_iff_lt_or_eq.1 hk with hlt | heq
      · exact hs.complete hN k hlt hlk hsl
      · obtain rfl := Fin.ext heq
        by_contra hS
        have hlv := (hs.revokes.live_iff k).2 ⟨hlk, hS⟩
        have hsm := hs.revokes.slot_of_live hlv
        rw [hsm] at hsk
        rcases hsk with hn | hn
        · exact hn hlk
        · rw [hsl] at hn
          cases hn
    · rw [if_neg hsk]
      rw [not_or, not_not] at hsk
      obtain ⟨hl, hsel⟩ := hsk
      obtain ⟨p, hp, hres⟩ := handleAt_of_live hl
      have hst := hs.step h hl (by simpa using hsel) hres
      rw [hp]
      simp only
      rcases hr : revokeSubtree t p with ⟨res, t'⟩
      rw [hr] at hst
      cases res with
      | ok | error => exact hst

/-- No live record is the holder's after `revoke_holder_tree`. -/
theorem revokeHolderTree_live (hN : N ≤ 65536) (h : WellRooted table) {holder : HolderId}
    (hi : (revokeHolderTree table holder).2.Live i) :
    ((revokeHolderTree table holder).2.slots i).holder ≠ holder := by
  obtain ⟨S, hs⟩ := revokeTrees_spec (fun r => decide (r.holder = holder)) h
  have hrel := releaseWhere_releases (fun r => decide (r.holder = holder))
    (revokeTrees (fun r => decide (r.holder = holder)) table).2
  have hsw := (hrel.live_iff i).1 hi
  obtain ⟨hli, hnS⟩ := (hs.revokes.live_iff i).1 hsw
  have hsm : (revokeHolderTree table holder).2.slots i = table.slots i :=
    (hrel.slot_of_live hsw).trans (hs.revokes.miss i hnS)
  rw [hsm]
  exact fun hh => hnS (hs.complete hN i i.isLt hli (decide_eq_true hh))

end CleanSlate.Capability
