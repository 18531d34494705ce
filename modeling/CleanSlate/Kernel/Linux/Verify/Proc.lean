import CleanSlate.Kernel.Linux.Verify.ProcLinks

/-!
# Processes own their slots

An exit looks up the slot of the process that exits. `exit_group` takes the slots of the children
that still run, and `exit` leaves them without a parent to report to. So every process that runs owns
its slot, and no exit is reported as a violation, exactly when every process that exits has its
parent still running, and no process with a parent calls `exit_group` while one of its children runs.
-/

namespace CleanSlate.Kernel.Linux

open Lib Function List

variable {s s' : ProcSystem} {id p parent x : ProcId} {pgid : UInt64} {t t' : LinuxProcessTable}
  {slot : ProcSlot} {index : Fin linuxMaxProcEntries} {k : Fin linuxProcMaxChildrenPerParent}
  {status : Int32}

namespace ProcSystem

open LinuxProcessTable

/-- Every process that has started and not yet exited owns a live slot. -/
def Owned (s : ProcSystem) : Prop := ∀ id ∈ s.registry, (s.table.slotIndex id).isSome

theorem owned_find : s.Owned ↔ ∀ id ∈ s.registry, (s.table.find id).isSome := by
  simp only [Owned, find_isSome]

/-! ## Starting a process -/

/-- The new process `id` has a fresh slot in `t'`. Its parent may have got an entry for it, in place
`k`; all else is as in `t`. -/
structure Gains (k : Fin linuxProcMaxChildrenPerParent) (t t' : LinuxProcessTable)
    (id parent : ProcId) (pgid : UInt64) : Prop where
  unique : t'.Unique
  fresh : t'.find id = some (freshSlot id parent pgid)
  isSome : ∀ {x}, x ≠ id → (t'.find x).isSome = (t.find x).isSome
  old : ∀ {x slot'}, x ≠ id → t'.find x = some slot' → ∃ slot, t.find x = some slot ∧
    slot'.parent = slot.parent ∧ slot'.pgid = slot.pgid ∧
    (∀ j e, slot.children j = some e → slot'.children j = some e) ∧
    ∀ j e, slot'.children j = some e → slot.children j = some e ∨
      x = parent ∧ j = k ∧ e = ⟨id, slot.pgid, .running⟩

theorem Enters.gains (ht : t.Enters t' id parent pgid) (k : Fin linuxProcMaxChildrenPerParent) :
    Gains k t t' id parent pgid where
  unique := ht.unique
  fresh := (ht.find id).trans (if_pos rfl)
  isSome hx := congrArg Option.isSome ((ht.find _).trans (if_neg hx))
  old {x slot'} hx hsl' := by
    rw [ht.find, if_neg hx] at hsl'
    exact ⟨slot', hsl', rfl, rfl, fun _ _ he => he, fun _ _ he => .inl he⟩

theorem Enters.gains_entry {w : LinuxProcessTable} (hw : t.Enters w id parent (w.slots index).pgid)
    (hne : id ≠ parent) (hin : w.slotIndex parent = some index)
    (hfr : (w.slots index).children k = none) :
    Gains k t (w.setChildren index (update (w.slots index).children k
      (some ⟨id, (w.slots index).pgid, .running⟩))) id parent (w.slots index).pgid := by
  have hfn := fun x => find_setChildren (x := x) hin (update (w.slots index).children k
    (some ⟨id, (w.slots index).pgid, .running⟩))
  have hgn := Enters.gains hw k
  refine ⟨hw.unique.setChildren _ _, ?_, fun hx => ?_, fun {x slot'} hx hsl' => ?_⟩
  · rw [hfn, if_neg hne]
    exact hgn.fresh
  · rw [isSome_setChildren]
    exact hgn.isSome hx
  rw [hfn] at hsl'
  by_cases hxp : x = parent
  · subst hxp
    rw [if_pos rfl] at hsl'
    cases hsl'
    have hsl := find_eq hin
    rw [hw.find, if_neg hx] at hsl
    refine ⟨_, hsl, rfl, rfl, fun j e he => ?_, fun j e he => ?_⟩
    · have hj : j ≠ k := by
        rintro rfl
        rw [hfr] at he
        cases he
      exact (update_of_ne hj ..).trans he
    · dsimp only at he
      by_cases hj : j = k
      · subst hj
        rw [update_self] at he
        exact .inr ⟨rfl, rfl, (Option.some.inj he).symm⟩
      · rw [update_of_ne hj] at he
        exact .inl he
  · rw [if_neg hxp] at hsl'
    exact hgn.old hx hsl'

variable {R : List ProcId}

section

variable (h : s.Linked)
include h

theorem Linked.pid_ne (hnew : s.lastPid < id.pid.toNat) : ∀ r ∈ s.registry, r.pid ≠ id.pid := by
  intro r hr hpid
  have hle := (h.pids r hr).2
  rw [hpid] at hle
  omega

section

variable (ht : Gains k s.table t' id parent pgid) (hnew : s.lastPid < id.pid.toNat)
include ht hnew

/-- A process gets its slot, and may start when it has no parent or the parent has its entry. -/
theorem Linked.gains (hpr : parent.pid.toNat < id.pid.toNat) (hnd : R.Nodup)
    (hold : ∀ y ∈ s.registry, y ∈ R)
    (hR : ∀ y ∈ R, y ∈ s.registry ∨ y = id ∧ (parent.pid ≠ 0 → parent ∈ s.registry ∧
      ∀ pslot, t'.find parent = some pslot → ∃ j e, pslot.children j = some e ∧ e.child = id)) :
    Linked ⟨t', R, id.pid.toNat⟩ := by
  have hfr := h.pid_ne hnew
  have hne : ∀ y ∈ s.registry, y ≠ id := fun y hy heq => hfr y hy (congrArg ProcId.pid heq)
  -- only a process other than the new one has entries
  have hen : ∀ {y pslot j e}, t'.find y = some pslot → pslot.children j = some e → y ≠ id := by
    rintro y pslot j e hy he rfl
    rw [ht.fresh] at hy
    cases hy
    cases he
  refine ⟨ht.unique, hnd, fun y hy => ?_, fun a ha b hb hab => ?_, fun {y slot'} hy => ?_,
    fun {y pslot' j e} hy he => ?_, fun {y pslot' j e} hy he hmem => ?_,
    fun {y pslot' j j' e e'} hy he he' hsm => ?_, fun {y slot' pslot'} hy hsl' hrt hp => ?_⟩
  · rcases hR y hy with hy | ⟨rfl, -⟩
    · have hle := h.pids y hy
      exact ⟨hle.1, by dsimp only; omega⟩
    · exact ⟨by omega, le_rfl⟩
  · rcases hR a ha with ha' | ⟨rfl, -⟩ <;> rcases hR b hb with hb' | ⟨rfl, -⟩
    · exact h.distinct a ha' b hb' hab
    · exact absurd hab (hfr a ha')
    · exact absurd hab.symm (hfr b hb')
    · rfl
  · by_cases hyid : y = id
    · subst hyid
      rw [ht.fresh] at hy
      cases hy
      exact ⟨hpr, le_rfl⟩
    · obtain ⟨slot, hsl, hpar, -⟩ := ht.old hyid hy
      have hlt := h.older hsl
      rw [hpar]
      exact ⟨hlt.1, by dsimp only; omega⟩
  · obtain ⟨pslot, hps, -, hpg, -, het⟩ := ht.old (hen hy he) hy
    rw [hpg]
    rcases het j e he with he | ⟨-, -, rfl⟩
    · obtain ⟨hle, hpd, hreg⟩ := h.bound hps he
      refine ⟨by dsimp only; omega, hpd, fun r hr hpid => ?_⟩
      rcases hR r hr with hr | ⟨rfl, -⟩
      · exact hreg r hr hpid
      · rw [← hpid] at hle
        omega
    · refine ⟨le_rfl, rfl, fun r hr hpid => ?_⟩
      rcases hR r hr with hr | ⟨rfl, -⟩
      · exact absurd hpid (hfr r hr)
      · rfl
  · obtain ⟨pslot, hps, -, -, -, het⟩ := ht.old (hen hy he) hy
    rcases het j e he with he | ⟨rfl, -, rfl⟩
    · have hle := (h.bound hps he).1
      have hcid : e.child ≠ id := by
        intro heq
        rw [heq] at hle
        omega
      have hmem : e.child ∈ s.registry := (hR _ hmem).resolve_right fun hc => hcid hc.1
      obtain ⟨hrun, cslot, hcs, hcp⟩ := h.child hps he hmem
      have hso := ht.isSome hcid
      rw [hcs] at hso
      obtain ⟨cslot', hcs'⟩ := Option.isSome_iff_exists.1 hso
      obtain ⟨cslot₀, hcslot₀, hcp', -⟩ := ht.old hcid hcs'
      rw [hcs] at hcslot₀
      cases hcslot₀
      exact ⟨hrun, cslot', hcs', hcp'.trans hcp⟩
    · exact ⟨rfl, _, ht.fresh, rfl⟩
  · obtain ⟨pslot, hps, -, -, -, het⟩ := ht.old (hen hy he) hy
    have hnn : ∀ {i e}, pslot.children i = some e → e.child ≠ id := by
      intro i e he heq
      have hle := (h.bound hps he).1
      rw [heq] at hle
      omega
    rcases het j e he with he | ⟨-, rfl, rfl⟩ <;> rcases het j' e' he' with he' | ⟨-, rfl, rfl⟩
    · exact h.single hps he he' hsm
    · exact absurd hsm (hnn he)
    · exact absurd hsm.symm (hnn he')
    · rfl
  · rcases hR y hy with hy | ⟨rfl, hln⟩
    · obtain ⟨slot, hsl, hpar, -⟩ := ht.old (hne y hy) hsl'
      rw [hpar] at hrt hp ⊢
      have hlt := h.older hsl
      obtain ⟨pslot, hps, -, -, hkp, -⟩ := ht.old (by intro heq; rw [heq] at hlt; omega) hp
      obtain ⟨hmem, j, e, he, hc⟩ := h.parent hy hsl hrt hps
      exact ⟨hold _ hmem, j, e, hkp j e he, hc⟩
    · rw [ht.fresh] at hsl'
      cases hsl'
      obtain ⟨hmem, hch⟩ := hln hrt
      exact ⟨hold _ hmem, hch _ hp⟩

theorem Linked.gains_owned (hR : ∀ y ∈ R, y ∈ s.registry ∨ y = id) (ho : s.Owned) :
    Owned ⟨t', R, id.pid.toNat⟩ := by
  rw [owned_find] at ho ⊢
  intro y hy
  rcases hR y hy with hy | rfl
  · exact (ht.isSome fun heq => h.pid_ne hnew y hy (congrArg ProcId.pid heq)).trans (ho y hy)
  · exact congrArg Option.isSome ht.fresh

end

/-! ## Ending a process -/

theorem Linked.teardown (ht : Trims (s.registry.erase id) s.table t') (hgn : t'.find id = none) :
    (ProcSystem.teardown { s with table := t' } id).Linked := by
  refine h.trims (ht.trans (retireStale_trims ht.unique fun x hx => ?_)) erase_sublist ?_
  · exact any_eq_true.2 ⟨x, mem_of_mem_erase hx, by simp⟩
  · intro x hx hout
    have hxid : x = id := by
      by_contra hne
      exact hout ((mem_erase_of_ne hne).2 hx)
    rw [ht.unique.find_retireStale, hxid, hgn]
    exact ite_self _

end

end ProcSystem

namespace LinuxProcessTable

variable {R : List ProcId} {id parent : ProcId} {slot : ProcSlot}
  {liveGeneration : UInt64 → Option UInt64}

/-- The table after an exit: the status is published, the children are finalized if the call does
so, and the slot is retired. -/
def ended (t : LinuxProcessTable) (id : ProcId) (word : Int32) (finalize : Bool) :
    LinuxProcessTable :=
  (if finalize then (t.publishExit id word).2.finalizeChildrenOnParentExit id
    else (t.publishExit id word).2).retireSlot id

/-- An exit trims the table for all others and takes the slot of the process. -/
theorem ended_trims (h : t.Unique) (hid : t.find id = some slot) (hR : id ∉ R) (word : Int32)
    (finalize : Bool) :
    Trims R t (t.ended id word finalize) ∧ (t.ended id word finalize).find id = none := by
  have hpb := publishExit_trims h hid hR word
  have htr : Trims R t (if finalize then (t.publishExit id word).2.finalizeChildrenOnParentExit id
      else (t.publishExit id word).2) := by
    cases finalize with
    | false => exact hpb
    | true => exact hpb.trans (finalizeChildren_trims hpb.unique)
  exact ⟨htr.trans (retireSlot_trims htr.unique hR), htr.unique.find_retireSlot.trans (if_pos rfl)⟩

/-! ## `wait4` -/

theorem findZombieChild_eq (h : t.slotIndex parent = some index) (waitPid : Int64) :
    t.findZombieChild liveGeneration parent waitPid =
      ((scanChildren liveGeneration waitPid (t.slots index).pgid
          (finRange linuxProcMaxChildrenPerParent) (t.slots index).children).1,
        t.setChildren index (scanChildren liveGeneration waitPid (t.slots index).pgid
          (finRange linuxProcMaxChildrenPerParent) (t.slots index).children).2) := by
  unfold findZombieChild
  rw [h]

/-- The table after `wait4`: a check fails; the scan has marked zombies; or the one it found is
reaped. -/
theorem linuxWait4_table (t : LinuxProcessTable) (liveGeneration : UInt64 → Option UInt64)
    (parent : ProcId) (call : WaitCall) :
    (t.linuxWait4 liveGeneration parent call).2 = t ∨
    (t.linuxWait4 liveGeneration parent call).2 =
      (t.findZombieChild liveGeneration parent call.pid).2 ∨
    ∃ child status, (t.findZombieChild liveGeneration parent call.pid).1 = some (child, status) ∧
      (t.linuxWait4 liveGeneration parent call).2 =
        (t.findZombieChild liveGeneration parent call.pid).2.reapZombie child := by
  unfold linuxWait4
  cases t.checkWait parent call with
  | error errno => exact .inl rfl
  | ok _ =>
    right
    dsimp only
    cases (t.findZombieChild liveGeneration parent call.pid).1 with
    | some found =>
      dsimp only
      split
      · exact .inr ⟨found.1, found.2, rfl, rfl⟩
      · exact .inl rfl
    | none =>
      dsimp only
      split_ifs <;> exact .inl rfl

end LinuxProcessTable

namespace ProcSystem

open LinuxProcessTable

/-! ## Every step -/

/-- The call was not a fatal exit, and no violation was reported. -/
def reportsNothing : ProcResult → Prop
  | .fatal | .exited (some _) => False
  | .ignored | .started _ | .failed _ | .launchFailed _ | .exited none | .waited _ => True

/-- The process was launched, or its parent still runs. -/
def ParentRuns (s : ProcSystem) (id : ProcId) : Prop :=
  ∀ parent, s.table.parentOf id = some parent → parent.pid = 0 ∨ parent ∈ s.registry

/-- A process whose parent runs has no child that runs. -/
def LeavesNoChild (s : ProcSystem) (id : ProcId) : Prop :=
  ∀ parent ∈ s.registry, s.table.parentOf id = some parent →
    ∀ child ∈ s.registry, s.table.parentOf child ≠ some id

/-- A process that exits was launched or has its parent still running, and one with a parent that
calls `exit_group` has no child that runs. -/
def Orderly (s : ProcSystem) : ProcOp → Prop
  | .exit id _ | .fault id _ => id ∈ s.registry → s.ParentRuns id
  | .exitGroup id _ => id ∈ s.registry → s.ParentRuns id ∧ s.LeavesNoChild id
  | .launch _ | .fork .. | .wait4 .. => True

/-- The links are kept, and the slots of the processes that run, and nothing is reported. -/
def Calm (s : ProcSystem) (out : ProcResult × ProcSystem) : Prop :=
  out.2.Linked ∧ (s.Owned → out.2.Owned ∧ reportsNothing out.1)

section

variable (h : s.Linked)
include h

theorem Linked.launch (hnew : s.lastPid < id.pid.toNat) : s.Calm (s.launch id) := by
  have hne : id ≠ noParent := by
    rintro rfl
    exact absurd hnew (Nat.not_lt_zero _)
  unfold ProcSystem.launch
  dsimp only
  cases hreg : s.table.register id noParent with
  | mk r t' =>
    rcases register_cases h.unique hne hreg with
      ⟨⟨message, rfl⟩, rfl | ⟨hrt, -⟩⟩ | ⟨rfl, -, ht⟩ | ⟨-, hrt, -⟩
    · exact ⟨h.lastPid_mono hnew.le, fun ho => ⟨ho, trivial⟩⟩
    · exact absurd rfl hrt
    · have hgn := Enters.gains ht ⟨0, by decide⟩
      refine ⟨h.gains hgn hnew (Nat.zero_lt_of_lt hnew) ?_ ?_ ?_, fun ho =>
        ⟨h.gains_owned hgn hnew (fun y hy => (mem_cons.1 hy).symm) ho, trivial⟩⟩
      · exact nodup_cons.2 ⟨fun hid => h.pid_ne hnew id hid rfl, h.nodup⟩
      · exact fun y hy => mem_cons_of_mem _ hy
      · exact fun y hy => (mem_cons.1 hy).symm.imp_right fun heq =>
          ⟨heq, fun hrt => absurd rfl hrt⟩
    · exact absurd rfl hrt

theorem Linked.fork (hnew : s.lastPid < id.pid.toNat) (hpr : parent ∈ s.registry)
    (fate : ForkFate) : s.Calm (s.fork parent id fate) := by
  have hpid := h.pids parent hpr
  have hne : id ≠ parent := by
    rintro rfl
    omega
  unfold ProcSystem.fork
  split
  · exact ⟨h, fun ho => ⟨ho, trivial⟩⟩
  split
  · exact ⟨h, fun ho => ⟨ho, trivial⟩⟩
  split
  · exact ⟨h, fun ho => ⟨ho, trivial⟩⟩
  dsimp only
  cases hreg : s.table.register id parent with
  | mk r t' =>
    rcases register_cases h.unique hne hreg with
      ⟨⟨message, rfl⟩, rfl | ⟨-, pgid, ht⟩⟩ | ⟨-, hrt, -⟩ |
      ⟨rfl, -, w, index, k, hw, hin, hfr, rfl⟩
    · exact ⟨h.lastPid_mono hnew.le, fun ho => ⟨ho, trivial⟩⟩
    · have hgn := Enters.gains ht ⟨0, by decide⟩
      exact ⟨h.gains hgn hnew (by omega) h.nodup (fun y hy => hy) fun y hy => .inl hy,
        fun ho => ⟨h.gains_owned hgn hnew (fun y hy => .inl hy) ho, trivial⟩⟩
    · rw [hrt] at hpid
      exact absurd hpid.1 (Nat.not_lt_zero _)
    have hgn := Enters.gains_entry hw hne hin hfr
    have hln := h.gains hgn hnew (by omega)
      (nodup_cons.2 ⟨fun hid => h.pid_ne hnew id hid rfl, h.nodup⟩)
      (fun y hy => mem_cons_of_mem _ hy) (fun y hy => (mem_cons.1 hy).symm.imp_right
        fun heq => ⟨heq, fun _ => ⟨hpr, fun pslot hp => by
          rw [find_setChildren hin, if_pos rfl] at hp
          cases hp
          exact ⟨k, _, update_self .., rfl⟩⟩⟩)
    dsimp only
    split
    · -- the child was never dispatched: its slot and its entry go
      refine ⟨hln.trims (reapZombie_trims hln.unique) (sublist_cons_self ..) ?_,
        fun ho => ⟨owned_find.2 fun x hx => ?_, trivial⟩⟩
      · intro x hx hout
        rcases mem_cons.1 hx with rfl | hx
        · exact (hln.unique.find_reapZombie).trans (if_pos rfl)
        · exact absurd hx hout
      · have hxid : x ≠ id := fun heq => h.pid_ne hnew x hx (congrArg ProcId.pid heq)
        rw [hgn.unique.find_reapZombie, if_neg hxid, Option.isSome_map, hgn.isSome hxid]
        exact owned_find.1 ho x hx
    · exact ⟨hln, fun ho =>
        ⟨h.gains_owned hgn hnew (fun y hy => (mem_cons.1 hy).symm) ho, trivial⟩⟩

theorem Linked.zombie_ended {pslot : ProcSlot} {e : ChildSlot}
    (hp : s.table.find p = some pslot) (he : pslot.children k = some e)
    (hz : e.state = .zombie status) : e.child ∉ s.registry := by
  intro hmem
  have hrun := (h.child hp he hmem).1
  rw [hz] at hrun
  cases hrun

theorem Linked.findZombieChild_trims (waitPid : Int64) :
    Trims s.registry s.table (s.table.findZombieChild s.liveGeneration p waitPid).2 := by
  cases hin : s.table.slotIndex p with
  | none =>
    unfold findZombieChild
    rw [hin]
    exact .refl h.unique
  | some index =>
    rw [findZombieChild_eq hin]
    refine setChildren_trims h.unique hin fun k => ?_
    rcases scanChildren_children s.liveGeneration waitPid (s.table.slots index).pgid
      (finRange linuxProcMaxChildrenPerParent) (s.table.slots index).children k with
      hk | ⟨e, status, he, hz, hk⟩
    · exact .inl hk
    · exact .inr ⟨e, .reaped, he, h.zombie_ended (find_eq hin) he hz, hk⟩

theorem Linked.found_ended {waitPid : Int64} {child : ProcId}
    (hfn : (s.table.findZombieChild s.liveGeneration p waitPid).1 = some (child, status)) :
    child ∉ s.registry := by
  cases hin : s.table.slotIndex p with
  | none =>
    unfold findZombieChild at hfn
    rw [hin] at hfn
    cases hfn
  | some index =>
    rw [findZombieChild_eq hin] at hfn
    obtain ⟨k, e, he, hc, hz, -⟩ := scanChildren_found hfn
    exact hc ▸ h.zombie_ended (find_eq hin) he hz

theorem Linked.wait4 (call : WaitCall) : s.Calm (s.wait4 p call) := by
  have hmr := h.findZombieChild_trims (p := p) call.pid
  have hsm : ∀ x, ((s.table.findZombieChild s.liveGeneration p call.pid).2.find x).isSome =
      (s.table.find x).isSome := by
    intro x
    unfold findZombieChild
    split
    · rfl
    · exact isSome_setChildren _
  have htb : Trims s.registry s.table (s.table.linuxWait4 s.liveGeneration p call).2 ∧
      ∀ x ∈ s.registry, ((s.table.linuxWait4 s.liveGeneration p call).2.find x).isSome =
        (s.table.find x).isSome := by
    obtain heq | heq | ⟨child, status, hfn, heq⟩ := linuxWait4_table s.table s.liveGeneration p call
    · rw [heq]
      exact ⟨.refl h.unique, fun x _ => rfl⟩
    · rw [heq]
      exact ⟨hmr, fun x _ => hsm x⟩
    · rw [heq]
      refine ⟨hmr.trans (reapZombie_trims hmr.unique), fun x hx => ?_⟩
      have hne : x ≠ child := by
        rintro rfl
        exact h.found_ended hfn hx
      rw [hmr.unique.find_reapZombie, if_neg hne, Option.isSome_map, hsm]
  refine ⟨h.trims htb.1 (List.Sublist.refl _) fun _ hx hout => absurd hx hout, fun ho =>
    ⟨owned_find.2 fun x hx => ?_, trivial⟩⟩
  exact (htb.2 x hx).trans (owned_find.1 ho x hx)

theorem Linked.ended (hsl : s.table.find id = some slot) (word : Int32) (finalize : Bool) :
    (ProcSystem.teardown { s with table := s.table.ended id word finalize } id).Linked := by
  obtain ⟨htr, hgn⟩ := ended_trims h.unique hsl h.nodup.not_mem_erase word finalize
  exact h.teardown htr hgn

end

theorem exit_eq (hsl : s.table.find id = some slot) (status : UInt64) (finalize : Bool) :
    ∃ word, s.exit id status finalize = (.exited (s.table.publishExit id word).1,
      ProcSystem.teardown { s with table := s.table.ended id word finalize } id) := by
  obtain ⟨index, hin, -⟩ := find_some hsl
  refine ⟨exitStatusWord (exitStatusFromLinux status).toUInt32 none, ?_⟩
  unfold ProcSystem.exit publishLinuxExit
  rw [hin]
  rfl

theorem fault_eq (hsl : s.table.find id = some slot) (vector : UInt64) :
    ∃ word, s.fault id vector = (.exited (s.table.publishExit id word).1,
      ProcSystem.teardown { s with table := s.table.ended id word false } id) := by
  obtain ⟨index, hin, -⟩ := find_some hsl
  refine ⟨exitStatusWord 0 (some (faultVectorToSignal vector)), ?_⟩
  unfold fault publishLinuxSignalledExit
  rw [hin]
  rfl

section

variable (h : s.Linked)
include h

theorem Linked.exit (status : UInt64) (finalize : Bool) : (s.exit id status finalize).2.Linked := by
  cases hsl : s.table.find id with
  | none =>
    unfold ProcSystem.exit publishLinuxExit
    rw [find_eq_none.1 hsl]
    exact h
  | some slot =>
    obtain ⟨word, heq⟩ := exit_eq hsl status finalize
    rw [heq]
    exact h.ended hsl word finalize

theorem Linked.fault (vector : UInt64) : (s.fault id vector).2.Linked := by
  cases hsl : s.table.find id with
  | none =>
    unfold ProcSystem.fault publishLinuxSignalledExit
    rw [find_eq_none.1 hsl]
    exact h.teardown (.refl h.unique) hsl
  | some slot =>
    obtain ⟨word, heq⟩ := fault_eq hsl vector
    rw [heq]
    exact h.ended hsl word false

theorem Linked.step (op : ProcOp) : (s.step op).2.Linked := by
  unfold ProcSystem.step
  cases hen : s.enabled op with
  | false => exact h
  | true =>
    cases op with
    | launch id => exact (h.launch (by simpa [enabled] using hen)).1
    | fork parent id fate =>
      obtain ⟨hpr, hnew⟩ : parent ∈ s.registry ∧ s.lastPid < id.pid.toNat := by
        simpa [enabled] using hen
      exact (h.fork hnew hpr fate).1
    | exit id status => exact h.exit status false
    | exitGroup id status => exact h.exit status true
    | fault id vector => exact h.fault vector
    | wait4 parent call => exact (h.wait4 call).1

end

/-! ## Slots of the processes that run -/

theorem teardown_owned (h : t'.Unique) (id : ProcId) :
    (ProcSystem.teardown { s with table := t' } id).Owned ↔
      ∀ x ∈ s.registry.erase id, (t'.find x).isSome := by
  rw [owned_find]
  refine forall_congr' fun x => forall_congr' fun hx => ?_
  have hlv : s.registryLive x.pid := any_eq_true.2 ⟨x, mem_of_mem_erase hx, by simp⟩
  change ((t'.retireStaleLiveSlots s.registryLive).find x).isSome ↔ _
  rw [h.find_retireStale, hlv]
  rfl

section

variable (h : s.Linked)
include h

theorem Linked.pid_ne_zero (hid : id ∈ s.registry) : id.pid ≠ 0 := by
  intro hzr
  have hpos := (h.pids id hid).1
  rw [hzr] at hpos
  exact absurd hpos (Nat.lt_irrefl _)

theorem Linked.ne_parent (hsl : s.table.find id = some slot) : id ≠ slot.parent := by
  intro heq
  have hlt := (h.older hsl).1
  rw [← heq] at hlt
  exact absurd hlt (Nat.lt_irrefl _)

/-- An exit is published to a parent that runs; without one it is reported. -/
theorem Linked.publishExit_reports (ho : s.Owned) (hid : id ∈ s.registry)
    (hsl : s.table.find id = some slot) (status : Int32) :
    (s.table.publishExit id status).1 = none ↔ s.ParentRuns id := by
  have hpr : s.ParentRuns id ↔ (slot.parent.pid = 0 ∨ slot.parent ∈ s.registry) := by
    unfold ParentRuns parentOf
    simp [hsl]
  rw [hpr]
  obtain ⟨hrt, heq⟩ | ⟨hrt, hnn, heq⟩ | ⟨hrt, pslot, hp, hno, heq⟩ |
    ⟨hrt, index, k, e, hin, he, hc, heq⟩ := publishExit_cases hsl status
  · simp [heq, hrt]
  · have hout : slot.parent ∉ s.registry := by
      intro hmem
      have hsm := owned_find.1 ho _ hmem
      rw [hnn] at hsm
      cases hsm
    simp [heq, hrt, hout]
  · obtain ⟨-, k, e, he, hc⟩ := h.parent hid hsl hrt hp
    exact absurd hc (hno k e he)
  · have hmem := (h.parent hid hsl hrt (find_eq hin)).1
    simp [heq, hmem]

theorem publishExit_isSome (hsl : s.table.find id = some slot) (hx : x ≠ id) (status : Int32) :
    ((s.table.publishExit id status).2.find x).isSome = (s.table.find x).isSome := by
  have hrp : ((s.table.reapZombie id).find x).isSome = (s.table.find x).isSome := by
    rw [h.unique.find_reapZombie, if_neg hx, Option.isSome_map]
  obtain ⟨-, heq⟩ | ⟨-, -, heq⟩ | ⟨-, -, -, -, heq⟩ | ⟨-, index, k, e, hin, he, hc, heq⟩ :=
    publishExit_cases hsl status
  · rw [heq, hrp]
  · rw [heq, hrp]
  · rw [heq, hrp]
  · rw [heq, isSome_setChildren]

/-- The slots the others keep when a process exits without finalizing its children. -/
theorem Linked.exit_keeps (ho : s.Owned) (hsl : s.table.find id = some slot) (status : Int32) :
    ∀ x ∈ s.registry.erase id,
      (((s.table.publishExit id status).2.retireSlot id).find x).isSome := by
  have hout : id ∉ s.registry.erase id := h.nodup.not_mem_erase
  have hpb := publishExit_trims h.unique hsl hout status
  intro x hx
  have hne : x ≠ id := by
    rintro rfl
    exact hout hx
  rw [hpb.unique.find_retireSlot, if_neg hne, publishExit_isSome h hsl hne]
  exact owned_find.1 ho x (mem_of_mem_erase hx)

section

variable (ho : s.Owned) (hid : id ∈ s.registry)
include ho hid

/-- Finalizing the children of a process that was reaped does nothing; of one with a parent it takes
the slots of those that run. -/
theorem Linked.finalize_keeps_iff (hsl : s.table.find id = some slot) (status : Int32) :
    (∀ x ∈ s.registry.erase id,
      ((((s.table.publishExit id status).2.finalizeChildrenOnParentExit id).retireSlot id).find
        x).isSome) ↔ s.LeavesNoChild id := by
  have hout : id ∉ s.registry.erase id := h.nodup.not_mem_erase
  have hpb := publishExit_trims h.unique hsl hout status
  have hpr : s.table.parentOf id = some slot.parent := by rw [parentOf, hsl]; rfl
  have hlv : s.LeavesNoChild id ↔
      (slot.parent ∈ s.registry → ∀ child ∈ s.registry, s.table.parentOf child ≠ some id) := by
    unfold LeavesNoChild
    rw [hpr]
    constructor
    · exact fun hno hmem => hno _ hmem rfl
    · rintro hno parent hmem hpar
      cases hpar
      exact hno hmem
  -- a process that was reaped has no slot, so its children are not looked at
  have hrp : slot.parent ∉ s.registry → (s.table.publishExit id status).2 = s.table.reapZombie id →
      ((∀ x ∈ s.registry.erase id,
        ((((s.table.publishExit id status).2.finalizeChildrenOnParentExit id).retireSlot id).find
          x).isSome) ↔ s.LeavesNoChild id) := by
    intro hout' heq
    have hkp := h.exit_keeps ho hsl status
    have hfn : (s.table.reapZombie id).finalizeChildrenOnParentExit id = s.table.reapZombie id := by
      unfold finalizeChildrenOnParentExit
      rw [h.unique.find_reapZombie, if_pos rfl]
    rw [heq] at hkp ⊢
    rw [hfn, hlv]
    exact ⟨fun _ hmem => absurd hmem hout', fun _ => hkp⟩
  obtain ⟨hrt, heq⟩ | ⟨hrt, hnn, heq⟩ | ⟨hrt, pslot, hp, hno, -⟩ |
    ⟨hrt, index, k, e, hin, he, hc, heq⟩ := publishExit_cases hsl status
  · exact hrp (fun hmem => h.pid_ne_zero hmem hrt) (by rw [heq])
  · refine hrp (fun hmem => ?_) (by rw [heq])
    have hsm := owned_find.1 ho _ hmem
    rw [hnn] at hsm
    cases hsm
  · obtain ⟨-, k, e, he, hc⟩ := h.parent hid hsl hrt hp
    exact absurd hc (hno k e he)
  · rw [heq] at hpb ⊢
    rw [hlv]
    generalize update (s.table.slots index).children k
      (some { e with state := .zombie status }) = children at hpb ⊢
    have hfd : (s.table.setChildren index children).find id = some slot := by
      rw [find_setChildren hin, if_neg (h.ne_parent hsl), hsl]
    have hfn := (finalizeChildren_trims (R := []) (p := id) hpb.unique).unique
    constructor
    · intro hkp _ child hch hcp
      -- the child has an entry, so finalizing takes its slot
      obtain ⟨cslot, hcs, hcr⟩ := Option.map_eq_some_iff.1 hcp
      have hrt' : cslot.parent.pid ≠ 0 := hcr ▸ h.pid_ne_zero hid
      obtain ⟨-, j, ej, hj, hjc⟩ := h.parent hch hcs hrt' (by rw [hcr]; exact hsl)
      have hrun := (h.child hsl hj (hjc ▸ hch)).1
      have hcne : child ≠ id := hcr ▸ h.ne_parent hcs
      have hsm := hkp child ((mem_erase_of_ne hcne).2 hch)
      rw [hfn.find_retireSlot, if_neg hcne, finalizeChildren_isSome hpb.unique hfd] at hsm
      exact hsm.2 j ej hj (by rw [hrun]; exact fun h => (by cases h)) hjc
    · intro hno x hx
      have hmem := mem_of_mem_erase hx
      have hxne : x ≠ id := by
        rintro rfl
        exact hout hx
      rw [hfn.find_retireSlot, if_neg hxne, finalizeChildren_isSome hpb.unique hfd,
        isSome_setChildren]
      refine ⟨owned_find.1 ho x hmem, fun j ej hj _ hjc => ?_⟩
      obtain ⟨-, cslot, hcs, hcr⟩ := h.child hsl hj (hjc ▸ hmem)
      refine hno (h.parent hid hsl hrt (find_eq hin)).1 x hmem ?_
      rw [parentOf, ← hjc, hcs]
      exact congrArg some hcr

theorem Linked.ended_iff (hsl : s.table.find id = some slot) (word : Int32) (finalize : Bool) :
    ((ProcSystem.teardown { s with table := s.table.ended id word finalize } id).Owned ∧
        reportsNothing (.exited (s.table.publishExit id word).1)) ↔
      s.ParentRuns id ∧ (finalize → s.LeavesNoChild id) := by
  have htr := (ended_trims h.unique hsl h.nodup.not_mem_erase word finalize).1
  have hrp := h.publishExit_reports ho hid hsl word
  rw [teardown_owned htr.unique id]
  cases hv : (s.table.publishExit id word).1 with
  | some violation =>
    rw [hv] at hrp
    have hno : ¬s.ParentRuns id := fun hrn => (by cases hrp.2 hrn)
    exact ⟨fun hbt => hbt.2.elim, fun hbt => absurd hbt.1 hno⟩
  | none =>
    have hrn := hrp.1 hv
    cases finalize with
    | false =>
      exact ⟨fun _ => ⟨hrn, fun h => (by cases h)⟩, fun _ => ⟨h.exit_keeps ho hsl word, trivial⟩⟩
    | true =>
      have hiff := h.finalize_keeps_iff ho hid hsl word
      exact ⟨fun hbt => ⟨hrn, fun _ => hiff.1 hbt.1⟩, fun hbt => ⟨hiff.2 (hbt.2 rfl), trivial⟩⟩

theorem Linked.exit_iff (status : UInt64) (finalize : Bool) :
    ((s.exit id status finalize).2.Owned ∧ reportsNothing (s.exit id status finalize).1) ↔
      s.ParentRuns id ∧ (finalize → s.LeavesNoChild id) := by
  obtain ⟨slot, hsl⟩ := Option.isSome_iff_exists.1 (owned_find.1 ho id hid)
  obtain ⟨word, heq⟩ := exit_eq hsl status finalize
  rw [heq]
  exact h.ended_iff ho hid hsl word finalize

theorem Linked.fault_iff (vector : UInt64) :
    ((s.fault id vector).2.Owned ∧ reportsNothing (s.fault id vector).1) ↔ s.ParentRuns id := by
  obtain ⟨slot, hsl⟩ := Option.isSome_iff_exists.1 (owned_find.1 ho id hid)
  obtain ⟨word, heq⟩ := fault_eq hsl vector
  rw [heq, h.ended_iff ho hid hsl word false]
  exact ⟨And.left, fun hrn => ⟨hrn, fun h => (by cases h)⟩⟩

end

end

/-- One step keeps the slots and reports nothing exactly when it is orderly. -/
theorem Linked.step_iff (h : s.Linked) (ho : s.Owned) (op : ProcOp) :
    ((s.step op).2.Owned ∧ reportsNothing (s.step op).1) ↔ s.Orderly op := by
  unfold ProcSystem.step
  cases hen : s.enabled op with
  | false =>
    rw [if_neg (by decide)]
    refine ⟨fun _ => ?_, fun _ => ⟨ho, trivial⟩⟩
    cases op with
    | launch | fork | wait4 => trivial
    | exit id status | exitGroup id status | fault id vector =>
      have hout : id ∉ s.registry := by simpa [enabled] using hen
      exact fun hid => absurd hid hout
  | true =>
    cases op with
    | launch id => exact iff_of_true ((h.launch (by simpa [enabled] using hen)).2 ho) trivial
    | fork parent id fate =>
      obtain ⟨hpr, hnew⟩ : parent ∈ s.registry ∧ s.lastPid < id.pid.toNat := by
        simpa [enabled] using hen
      exact iff_of_true ((h.fork hnew hpr fate).2 ho) trivial
    | exit id status =>
      have hid : id ∈ s.registry := by simpa [enabled] using hen
      have hiff := h.exit_iff ho hid status false
      exact ⟨fun hbt _ => (hiff.1 hbt).1, fun hord => hiff.2 ⟨hord hid, fun h => (by cases h)⟩⟩
    | exitGroup id status =>
      have hid : id ∈ s.registry := by simpa [enabled] using hen
      have hiff := h.exit_iff ho hid status true
      exact ⟨fun hbt _ => ⟨(hiff.1 hbt).1, (hiff.1 hbt).2 rfl⟩,
        fun hord => hiff.2 ⟨(hord hid).1, fun _ => (hord hid).2⟩⟩
    | fault id vector =>
      have hid : id ∈ s.registry := by simpa [enabled] using hen
      have hiff := h.fault_iff ho hid vector
      exact ⟨fun hbt _ => hiff.1 hbt, fun hord => hiff.2 (hord hid)⟩
    | wait4 parent call => exact iff_of_true ((h.wait4 call).2 ho) trivial

/-- Throughout a run every process that runs owns a live slot, and no exit is fatal or reported,
exactly when every step of the run is orderly. -/
theorem slots_owned_iff (ops : List ProcOp) :
    (∀ done, done <+: ops → (run step new done).Owned ∧
      ∀ e ∈ trace step new done, reportsNothing e.output) ↔
    ∀ e ∈ trace step new ops, e.pre.Orderly e.input := by
  refine forall_prefix_iff step
    (P := fun log s => s.Owned ∧ ∀ e ∈ log, reportsNothing e.output) new_linked
    (fun _ op h => h.step op) ⟨forall_mem_nil _, forall_mem_nil _⟩ ?_ ops
  intro log s op h hown
  have hiff := h.step_iff hown.1 op
  rw [forall_mem_append, forall_mem_singleton]
  exact ⟨fun hbt => hiff.1 ⟨hbt.1, hbt.2.2⟩, fun hord => ⟨(hiff.2 hord).1, hown.2, (hiff.2 hord).2⟩⟩

/-- A process is launched and forks, and its child exits before it. -/
theorem slots_owned_fork_exit :
    let ops := [.launch ⟨1, 1⟩, .fork ⟨1, 1⟩ ⟨2, 2⟩ .completes, .exit ⟨2, 2⟩ 7, .exit ⟨1, 1⟩ 0]
    (run step new (ops.take 2)).Owned ∧ ∀ e ∈ trace step new ops, reportsNothing e.output := by
  intro ops
  have hpr : ∀ {s : ProcSystem} {id} parent, s.table.parentOf id = some parent →
      parent.pid = 0 ∨ parent ∈ s.registry → s.ParentRuns id :=
    fun _ h hp _ h' => Option.some.inj (h.symm.trans h') ▸ hp
  have h := (slots_owned_iff ops).2 (by
    simp only [ops, trace, forall_mem_cons]
    exact ⟨trivial, trivial, fun _ => hpr ⟨1, 1⟩ (by decide +kernel) (.inr (by decide +kernel)),
      fun _ => hpr noParent (by decide +kernel) (.inl rfl), forall_mem_nil _⟩)
  exact ⟨(h _ ( take_prefix 2 ops)).1, (h _ (prefix_refl _)).2⟩

/-- Process 2 calls `exit_group` while its child 3 runs; the exit of 3 is then fatal. -/
theorem exit_group_takes_running_slot :
    let before := run step new
      [.launch ⟨1, 1⟩, .fork ⟨1, 1⟩ ⟨2, 2⟩ .completes, .fork ⟨2, 2⟩ ⟨3, 3⟩ .completes,
        .exitGroup ⟨2, 2⟩ 0]
    ⟨3, 3⟩ ∈ before.registry ∧ before.table.slotIndex ⟨3, 3⟩ = none ∧
      (step before (.exit ⟨3, 3⟩ 0)).1 = .fatal := by
  decide +kernel

end ProcSystem

end CleanSlate.Kernel.Linux
