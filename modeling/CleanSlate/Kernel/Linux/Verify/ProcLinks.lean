import CleanSlate.Kernel.Linux.Verify.ProcTable

/-!
# Parents and children

`Linked` ties the table to the process registry in every state of every run: a process that runs and
has a slot is entered in the list of a parent that has one, and an entry of a process that runs is
that of a child. All operations but `launch` and `fork` only trim the table: slots and entries go, and
what is left about the processes that go on running does not change.
-/

namespace CleanSlate.Kernel.Linux

open Lib Function

namespace LinuxProcessTable

variable {t t' t'' : LinuxProcessTable} {R : List ProcId} {id x p : ProcId} {slot : ProcSlot}

/-! ## Trimming -/

/-- From `t` to `t'` slots and entries may go, and entries of processes outside `R` may change their
state. An entry of a process of `R` goes only with the slot of that process, and the slot only with
the entry. -/
structure Trims (R : List ProcId) (t t' : LinuxProcessTable) : Prop where
  unique : t'.Unique
  slot : ∀ {x slot'}, t'.find x = some slot' → ∃ slot, t.find x = some slot ∧
    slot'.parent = slot.parent ∧ slot'.pgid = slot.pgid ∧
    ∀ k e', slot'.children k = some e' → ∃ e, slot.children k = some e ∧
      e'.child = e.child ∧ e'.pgid = e.pgid ∧ (e.child ∈ R → e' = e)
  entry : ∀ {x slot slot'}, t.find x = some slot → t'.find x = some slot' →
    ∀ k e, slot.children k = some e → e.child ∈ R → (t'.find e.child).isSome →
      slot'.children k = some e
  held : ∀ {x slot'}, t'.find x = some slot' → ∀ k e, slot'.children k = some e → e.child ∈ R →
    (t.find e.child).isSome → (t'.find e.child).isSome

theorem Trims.isSome (h : Trims R t t') (hx : (t'.find x).isSome) : (t.find x).isSome := by
  obtain ⟨slot', hsl'⟩ := Option.isSome_iff_exists.1 hx
  obtain ⟨slot, hsl, -⟩ := h.slot hsl'
  rw [hsl]
  rfl

theorem Trims.refl (h : t.Unique) : Trims R t t where
  unique := h
  slot {x slot'} hsl := ⟨slot', hsl, rfl, rfl, fun k e he => ⟨e, he, rfl, rfl, fun _ => rfl⟩⟩
  entry {x slot slot'} hsl hsl' k e he _ _ := by
    rw [hsl] at hsl'
    cases hsl'
    exact he
  held _ _ _ _ _ h := h

theorem Trims.trans (h : Trims R t t') (h' : Trims R t' t'') : Trims R t t'' where
  unique := h'.unique
  slot {x slot''} hsl'' := by
    obtain ⟨slot', hsl', hpr', hpd', hen'⟩ := h'.slot hsl''
    obtain ⟨slot, hsl, hpr, hpd, hen⟩ := h.slot hsl'
    refine ⟨slot, hsl, hpr'.trans hpr, hpd'.trans hpd, fun k e'' he'' => ?_⟩
    obtain ⟨e', he', hch', hpg', hsm'⟩ := hen' k e'' he''
    obtain ⟨e, he, hch, hpg, hsm⟩ := hen k e' he'
    refine ⟨e, he, hch'.trans hch, hpg'.trans hpg, fun hR => ?_⟩
    exact (hsm' (hch ▸ hR)).trans (hsm hR)
  entry {x slot slot''} hsl hsl'' k e he hR hso := by
    obtain ⟨slot', hsl', -⟩ := h'.slot hsl''
    exact h'.entry hsl' hsl'' k e (h.entry hsl hsl' k e he hR (h'.isSome hso)) hR hso
  held {x slot''} hsl'' k e he hR hso := by
    obtain ⟨slot', hsl', -, -, hen'⟩ := h'.slot hsl''
    obtain ⟨e', he', hch', -, -⟩ := hen' k e he
    have hso' := h.held hsl' k e' he' (hch' ▸ hR) (hch' ▸ hso)
    exact h'.held hsl'' k e he hR (hch' ▸ hso')

/-- The table loses slots of processes outside `R`. -/
theorem Trims.of_find (hun : t'.Unique) (hfn : ∀ x, t'.find x = t.find x ∨ t'.find x = none)
    (hR : ∀ x ∈ R, t'.find x = t.find x) : Trims R t t' where
  unique := hun
  slot {x slot'} hsl' := by
    rcases hfn x with hx | hx
    · exact ⟨slot', hx ▸ hsl', rfl, rfl, fun k e he => ⟨e, he, rfl, rfl, fun _ => rfl⟩⟩
    · rw [hx] at hsl'
      cases hsl'
  entry {x slot slot'} hsl hsl' k e he _ _ := by
    rcases hfn x with hx | hx
    · rw [hx, hsl] at hsl'
      cases hsl'
      exact he
    · rw [hx] at hsl'
      cases hsl'
  held {x slot'} _ k e _ he hsm := by rwa [hR _ he]

theorem retireSlot_trims (h : t.Unique) (hx : x ∉ R) : Trims R t (t.retireSlot x) := by
  refine .of_find (h.retireSlot x) (fun y => ?_) (fun y hy => ?_)
  · rw [h.find_retireSlot]
    by_cases hy : y = x
    · exact .inr (if_pos hy)
    · exact .inl (if_neg hy)
  · rw [h.find_retireSlot, if_neg]
    rintro rfl
    exact hx hy

theorem retireStale_trims (h : t.Unique) {registryLive : UInt64 → Bool}
    (hlv : ∀ x ∈ R, registryLive x.pid) :
    Trims R t (t.retireStaleLiveSlots registryLive) := by
  refine .of_find (h.map (unlessStale_keeping _)) (fun y => ?_) (fun y hy => ?_)
  · rw [h.find_retireStale]
    cases registryLive y.pid with
    | true => exact .inl rfl
    | false => exact .inr rfl
  · rw [h.find_retireStale, hlv y hy]
    rfl

theorem dropChild_some {k : Fin linuxProcMaxChildrenPerParent} {e : ChildSlot} :
    (dropChild id slot).children k = some e ↔ slot.children k = some e ∧ e.child ≠ id := by
  unfold dropChild
  dsimp only
  cases hk : slot.children k with
  | none => simp [isChild]
  | some entry =>
    by_cases hid : entry.child = id
    · simp only [isChild, hid, decide_true, if_pos, reduceCtorEq, false_iff, not_and]
      rintro he
      cases he
      exact fun hne => hne hid
    · simp only [isChild, hid, decide_false, Bool.false_eq_true, if_false]
      constructor
      · intro he
        cases he
        exact ⟨rfl, hid⟩
      · exact And.left

theorem reapZombie_trims (h : t.Unique) : Trims R t (t.reapZombie x) where
  unique := (h.retireSlot x).map (dropChild_keeping x)
  slot {y slot'} hsl' := by
    rw [h.find_reapZombie] at hsl'
    by_cases hy : y = x
    · rw [if_pos hy] at hsl'
      cases hsl'
    · rw [if_neg hy] at hsl'
      obtain ⟨slot, hsl, rfl⟩ := Option.map_eq_some_iff.1 hsl'
      exact ⟨slot, hsl, rfl, rfl, fun k e he =>
        ⟨e, (dropChild_some.1 he).1, rfl, rfl, fun _ => rfl⟩⟩
  entry {y slot slot'} hsl hsl' k e he hR hsm := by
    rw [h.find_reapZombie] at hsl' hsm
    by_cases hy : y = x
    · rw [if_pos hy] at hsl'
      cases hsl'
    rw [if_neg hy, hsl] at hsl'
    cases hsl'
    refine dropChild_some.2 ⟨he, ?_⟩
    rintro hex
    rw [if_pos hex] at hsm
    cases hsm
  held {y slot'} hsl' k e he hR hsm := by
    rw [h.find_reapZombie] at hsl' ⊢
    by_cases hy : y = x
    · rw [if_pos hy] at hsl'
      cases hsl'
    · rw [if_neg hy] at hsl'
      obtain ⟨slot, hsl, rfl⟩ := Option.map_eq_some_iff.1 hsl'
      rw [if_neg (dropChild_some.1 he).2, Option.isSome_map]
      exact hsm

/-- A child list is replaced by one that differs in the state of entries outside `R` only. -/
theorem setChildren_trims (h : t.Unique) {index : Fin linuxMaxProcEntries} {children : Children}
    (hp : t.slotIndex p = some index)
    (hsm : ∀ k, children k = (t.slots index).children k ∨ ∃ e state,
      (t.slots index).children k = some e ∧ e.child ∉ R ∧ children k = some { e with state }) :
    Trims R t (t.setChildren index children) := by
  have hfn := fun x => find_setChildren (x := x) hp children
  have hpf := find_eq hp
  refine ⟨h.setChildren _ _, ?_, ?_, ?_⟩
  · intro x slot' hsl'
    rw [hfn] at hsl'
    by_cases hx : x = p
    · rw [if_pos hx] at hsl'
      cases hsl'
      refine ⟨t.slots index, hx ▸ hpf, rfl, rfl, fun k e' he' => ?_⟩
      dsimp only at he'
      rcases hsm k with hk | ⟨e, state, he, hout, hk⟩
      · exact ⟨e', hk ▸ he', rfl, rfl, fun _ => rfl⟩
      · rw [hk] at he'
        cases he'
        exact ⟨e, he, rfl, rfl, fun hR => absurd hR hout⟩
    · rw [if_neg hx] at hsl'
      exact ⟨slot', hsl', rfl, rfl, fun k e he => ⟨e, he, rfl, rfl, fun _ => rfl⟩⟩
  · intro x slot slot' hsl hsl' k e he hR _
    rw [hfn] at hsl'
    by_cases hx : x = p
    · rw [if_pos hx] at hsl'
      cases hsl'
      rw [hx, hpf] at hsl
      cases hsl
      rcases hsm k with hk | ⟨e', state, he', hout, hk⟩
      · exact hk.trans he
      · rw [he] at he'
        cases he'
        exact absurd hR hout
    · rw [if_neg hx, hsl] at hsl'
      cases hsl'
      exact he
  · intro x slot' _ k e _ _ hso
    rwa [isSome_setChildren]

/-! ## What an exit trims -/

theorem reapEntry_trims (h : t.Unique) (entry : Option ChildSlot) :
    Trims R t (t.reapEntry entry) := by
  cases entry with
  | none => exact .refl h
  | some e =>
    rw [reapEntry]
    by_cases hrp : e.state = .reaped
    · rw [if_pos hrp]
      exact .refl h
    · rw [if_neg hrp]
      exact reapZombie_trims h

theorem reapEntry_isSome (h : t.Unique) (entry : Option ChildSlot) :
    ((t.reapEntry entry).find x).isSome ↔
      (t.find x).isSome ∧ ∀ e, entry = some e → e.state ≠ .reaped → e.child ≠ x := by
  cases entry with
  | none => simp [reapEntry]
  | some e =>
    rw [reapEntry]
    by_cases hrp : e.state = .reaped
    · simp [hrp]
    rw [if_neg hrp, h.find_reapZombie]
    by_cases hx : x = e.child
    · simp [hrp, hx]
    · have hx' : e.child ≠ x := fun h => hx h.symm
      simp [hrp, hx, hx']

theorem finalizeLoop_trims (children : Children) (ks : List (Fin linuxProcMaxChildrenPerParent))
    (h : t.Unique) : Trims R t (ks.foldl (fun t k => t.reapEntry (children k)) t) := by
  induction ks generalizing t with
  | nil => exact .refl h
  | cons k ks ih =>
    have hk : Trims R t (t.reapEntry (children k)) := reapEntry_trims h _
    exact hk.trans (ih hk.unique)

theorem finalizeChildren_trims (h : t.Unique) : Trims R t (t.finalizeChildrenOnParentExit p) := by
  unfold finalizeChildrenOnParentExit
  cases t.find p with
  | none => exact .refl h
  | some slot => exact finalizeLoop_trims slot.children _ h

/-- Finalizing takes the slots of the children that have not been waited for, and no other. -/
theorem finalizeLoop_isSome (children : Children) (ks : List (Fin linuxProcMaxChildrenPerParent))
    (h : t.Unique) :
    ((ks.foldl (fun t k => t.reapEntry (children k)) t).find x).isSome ↔ (t.find x).isSome ∧
        ∀ k ∈ ks, ∀ e, children k = some e → e.state ≠ .reaped → e.child ≠ x := by
  induction ks generalizing t with
  | nil => simp
  | cons k ks ih =>
    have hk : Trims [] t (t.reapEntry (children k)) := reapEntry_trims h _
    rw [List.foldl_cons, ih hk.unique, reapEntry_isSome h, List.forall_mem_cons, and_assoc]

theorem finalizeChildren_isSome (h : t.Unique) (hp : t.find p = some slot) :
    ((t.finalizeChildrenOnParentExit p).find x).isSome ↔ (t.find x).isSome ∧
        ∀ k e, slot.children k = some e → e.state ≠ .reaped → e.child ≠ x := by
  unfold finalizeChildrenOnParentExit
  rw [hp]
  rw [finalizeLoop_isSome slot.children _ h]
  simp

theorem isChild_eq_true {entry : Option ChildSlot} :
    isChild id entry ↔ ∃ e, entry = some e ∧ e.child = id := by
  cases entry <;> simp [isChild]

/-- An exit is published to a parent that has a slot and the entry; otherwise the process is reaped. -/
theorem publishExit_cases (hid : t.find id = some slot) (status : Int32) :
    (slot.parent.pid = 0 ∧ t.publishExit id status = (none, t.reapZombie id)) ∨
    (slot.parent.pid ≠ 0 ∧ t.find slot.parent = none ∧
      t.publishExit id status = (some (.parentSlotMissing id slot.parent), t.reapZombie id)) ∨
    (slot.parent.pid ≠ 0 ∧ ∃ pslot, t.find slot.parent = some pslot ∧
      (∀ k e, pslot.children k = some e → e.child ≠ id) ∧
      t.publishExit id status = (some (.childMissingInParentList id slot.parent), t.reapZombie id)) ∨
    (slot.parent.pid ≠ 0 ∧ ∃ index k e, t.slotIndex slot.parent = some index ∧
      (t.slots index).children k = some e ∧ e.child = id ∧
      t.publishExit id status = (none, t.setChildren index
        (update (t.slots index).children k (some { e with state := .zombie status })))) := by
  unfold publishExit parentOf
  rw [hid]
  dsimp only [Option.map_some]
  by_cases hrt : slot.parent.pid = 0
  · exact .inl ⟨hrt, if_pos hrt⟩
  rw [if_neg hrt]
  refine .inr ?_
  cases hin : t.slotIndex slot.parent with
  | none => exact .inl ⟨hrt, find_eq_none.2 hin, rfl⟩
  | some index =>
    refine .inr ?_
    dsimp only
    cases hk : Slots.position (isChild id) (t.slots index).children with
    | none =>
      refine .inl ⟨hrt, t.slots index, find_eq hin, fun k e he hc => ?_, rfl⟩
      have hno := Slots.position_none.1 hk k
      rw [he] at hno
      simp [isChild, hc] at hno
    | some k =>
      obtain ⟨e, he, hc⟩ := isChild_eq_true.1 (Slots.position_some hk)
      refine .inr ⟨hrt, index, k, e, rfl, he, hc, ?_⟩
      dsimp only
      rw [he]
      rfl

theorem publishExit_trims (h : t.Unique) (hid : t.find id = some slot) (hR : id ∉ R)
    (status : Int32) : Trims R t (t.publishExit id status).2 := by
  obtain ⟨-, heq⟩ | ⟨-, -, heq⟩ | ⟨-, _, -, -, heq⟩ | ⟨-, index, k, e, hin, he, hc, heq⟩ :=
    publishExit_cases hid status
  · rw [heq]
    exact reapZombie_trims h
  · rw [heq]
    exact reapZombie_trims h
  · rw [heq]
    exact reapZombie_trims h
  rw [heq]
  refine setChildren_trims h hin fun k' => ?_
  by_cases hk : k' = k
  · subst hk
    rw [update_self]
    exact .inr ⟨e, .zombie status, he, hc ▸ hR, rfl⟩
  · exact .inl (update_of_ne hk ..)

/-! ## What `wait4` trims -/

/-- The scan marks entries of zombies and leaves all others. -/
theorem scanChildren_children (liveGeneration : UInt64 → Option UInt64) (waitPid : Int64)
    (pgid : UInt64) (ks : List (Fin linuxProcMaxChildrenPerParent)) (children : Children)
    (k : Fin linuxProcMaxChildrenPerParent) :
    (scanChildren liveGeneration waitPid pgid ks children).2 k = children k ∨
      ∃ e status, children k = some e ∧ e.state = .zombie status ∧
        (scanChildren liveGeneration waitPid pgid ks children).2 k =
          some { e with state := .reaped } := by
  induction ks generalizing children with
  | nil => exact .inl rfl
  | cons j ks ih =>
    unfold scanChildren
    cases hj : children j with
    | none => exact ih children
    | some entry =>
      dsimp only
      by_cases hmt : entry.matchesWait waitPid pgid
      · rw [if_pos hmt]
        cases hst : entry.state with
        | running | reaped => exact ih children
        | zombie status =>
          dsimp only
          -- the entry marked here is a zombie no longer, so the rest of the scan leaves it
          have hmr : ∀ marked, marked = update children j (some { entry with state := .reaped }) →
              (marked k = children k ∨ ∃ e status, children k = some e ∧ e.state = .zombie status ∧
                marked k = some { e with state := .reaped }) := by
            rintro marked rfl
            by_cases hk : k = j
            · subst hk
              exact .inr ⟨entry, status, hj, hst, update_self ..⟩
            · exact .inl (update_of_ne hk ..)
          split
          · rcases ih (update children j (some { entry with state := .reaped })) with
              hrs | ⟨e, status', he, hz, hrs⟩
            · rw [hrs]
              exact hmr _ rfl
            rcases hmr _ rfl with hsm | ⟨e', st', -, -, hgn⟩
            · rw [hsm] at he
              exact .inr ⟨e, status', he, hz, hrs⟩
            · rw [hgn] at he
              cases he
              cases hz
          · exact hmr _ rfl
      · rw [if_neg hmt]
        exact ih children

/-- What a scan returns is a zombie that the selector matches. -/
theorem scanChildren_found {liveGeneration : UInt64 → Option UInt64} {waitPid : Int64}
    {pgid : UInt64} {ks : List (Fin linuxProcMaxChildrenPerParent)} {children : Children}
    {child : ProcId} {status : Int32}
    (h : (scanChildren liveGeneration waitPid pgid ks children).1 = some (child, status)) :
    ∃ k e, children k = some e ∧ e.child = child ∧ e.state = .zombie status ∧
      e.matchesWait waitPid pgid := by
  induction ks generalizing children with
  | nil => cases h
  | cons j ks ih =>
    unfold scanChildren at h
    cases hj : children j with
    | none =>
      rw [hj] at h
      exact ih h
    | some entry =>
      rw [hj] at h
      dsimp only at h
      by_cases hmt : entry.matchesWait waitPid pgid
      · rw [if_pos hmt] at h
        cases hst : entry.state with
        | running | reaped =>
          rw [hst] at h
          exact ih h
        | zombie st =>
          rw [hst] at h
          dsimp only at h
          split at h
          · obtain ⟨k, e, he, hc, hz, hm⟩ := ih h
            by_cases hk : k = j
            · subst hk
              rw [update_self] at he
              cases he
              cases hz
            · rw [update_of_ne hk] at he
              exact ⟨k, e, he, hc, hz, hm⟩
          · cases h
            exact ⟨j, entry, hj, rfl, hst, hmt⟩
      · rw [if_neg hmt] at h
        exact ih h

end LinuxProcessTable

/-! ## The invariant -/

namespace ProcSystem

open LinuxProcessTable

variable {s : ProcSystem} {id p : ProcId}

structure Linked (s : ProcSystem) : Prop where
  unique : s.table.Unique
  nodup : s.registry.Nodup
  pids : ∀ id ∈ s.registry, 0 < id.pid.toNat ∧ id.pid.toNat ≤ s.lastPid
  distinct : ∀ a ∈ s.registry, ∀ b ∈ s.registry, a.pid = b.pid → a = b
  older : ∀ {id slot}, s.table.find id = some slot →
    slot.parent.pid.toNat < id.pid.toNat ∧ id.pid.toNat ≤ s.lastPid
  bound : ∀ {p pslot k e}, s.table.find p = some pslot → pslot.children k = some e →
    e.child.pid.toNat ≤ s.lastPid ∧ e.pgid = pslot.pgid ∧
      ∀ r ∈ s.registry, r.pid = e.child.pid → r = e.child
  child : ∀ {p pslot k e}, s.table.find p = some pslot → pslot.children k = some e →
    e.child ∈ s.registry → e.state = .running ∧
      ∃ slot, s.table.find e.child = some slot ∧ slot.parent = p
  single : ∀ {p pslot k k' e e'}, s.table.find p = some pslot → pslot.children k = some e →
    pslot.children k' = some e' → e.child = e'.child → k = k'
  parent : ∀ {id slot pslot}, id ∈ s.registry → s.table.find id = some slot →
    slot.parent.pid ≠ 0 → s.table.find slot.parent = some pslot →
      slot.parent ∈ s.registry ∧ ∃ k e, pslot.children k = some e ∧ e.child = id

theorem new_linked : new.Linked := by
  have hnn : ∀ {id slot}, new.table.find id ≠ some slot := by
    intro id slot h
    cases h
  exact ⟨fun i j hi => Bool.noConfusion hi, List.nodup_nil, List.forall_mem_nil _,
    List.forall_mem_nil _, fun h => absurd h hnn, fun h => absurd h hnn,
    fun h => absurd h hnn, fun h => absurd h hnn, fun _ h => absurd h hnn⟩

/-- The processes that end lose their slots, and the table is trimmed for the others. -/
theorem Linked.trims (h : s.Linked) {R : List ProcId} {t' : LinuxProcessTable}
    (ht : Trims R s.table t') (hR : R.Sublist s.registry)
    (hgn : ∀ x ∈ s.registry, x ∉ R → t'.find x = none) : Linked ⟨t', R, s.lastPid⟩ where
  unique := ht.unique
  nodup := h.nodup.sublist hR
  pids id hid := h.pids id (hR.subset hid)
  distinct a ha b hb := h.distinct a (hR.subset ha) b (hR.subset hb)
  older {id slot'} hsl' := by
    obtain ⟨slot, hsl, hpr, -⟩ := ht.slot hsl'
    rw [hpr]
    exact h.older hsl
  bound {p pslot' k e'} hsl' he' := by
    obtain ⟨pslot, hsl, -, hpd, hen⟩ := ht.slot hsl'
    obtain ⟨e, he, hch, hpg, -⟩ := hen k e' he'
    obtain ⟨hle, hgr, hreg⟩ := h.bound hsl he
    rw [hch, hpg, hpd]
    exact ⟨hle, hgr, fun r hr => hreg r (hR.subset hr)⟩
  child {p pslot' k e'} hsl' he' hmem := by
    obtain ⟨pslot, hsl, -, hpd, hen⟩ := ht.slot hsl'
    obtain ⟨e, he, hch, hpg, hsm⟩ := hen k e' he'
    obtain ⟨hrun, cslot, hcs, hcp⟩ := h.child hsl he (hR.subset (hch ▸ hmem))
    refine ⟨(hsm (hch ▸ hmem)) ▸ hrun, ?_⟩
    have hhl := ht.held hsl' k e' he' hmem (by rw [hch, hcs]; rfl)
    obtain ⟨cslot', hcs'⟩ := Option.isSome_iff_exists.1 hhl
    obtain ⟨cslot0, hcslot0, hparent0, -⟩ := ht.slot hcs'
    rw [hch, hcs] at hcslot0
    cases hcslot0
    exact ⟨cslot', hcs', hparent0.trans hcp⟩
  single {p pslot' k k' e e'} hsl' he he' hsm := by
    obtain ⟨pslot, hsl, -, -, hen⟩ := ht.slot hsl'
    obtain ⟨e0, he0, hc0, -, -⟩ := hen k e he
    obtain ⟨e1, he1, hc1, -, -⟩ := hen k' e' he'
    exact h.single hsl he0 he1 (hc0.symm.trans (hsm.trans hc1))
  parent {id slot' pslot'} hid hsl' hrt hps' := by
    obtain ⟨slot, hsl, hpr, -⟩ := ht.slot hsl'
    obtain ⟨pslot, hps, -⟩ := ht.slot hps'
    rw [hpr] at hrt hps hps' ⊢
    obtain ⟨hmem, k, e, he, hc⟩ := h.parent (hR.subset hid) hsl hrt hps
    refine ⟨?_, k, e, ht.entry hps hps' k e he (hc ▸ hid) (by rw [hc, hsl']; rfl), hc⟩
    by_contra hout
    rw [hgn _ hmem hout] at hps'
    cases hps'

theorem Linked.lastPid_mono (h : s.Linked) {n : Nat} (hn : s.lastPid ≤ n) :
    Linked { s with lastPid := n } where
  unique := h.unique
  nodup := h.nodup
  pids id hid := ⟨(h.pids id hid).1, (h.pids id hid).2.trans hn⟩
  distinct := h.distinct
  older hsl := ⟨(h.older hsl).1, (h.older hsl).2.trans hn⟩
  bound hsl he := ⟨(h.bound hsl he).1.trans hn, (h.bound hsl he).2⟩
  child := h.child
  single := h.single
  parent := h.parent

end ProcSystem

end CleanSlate.Kernel.Linux
