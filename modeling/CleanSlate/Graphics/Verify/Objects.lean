import CleanSlate.Graphics.Objects
import Mathlib.Algebra.Order.BigOperators.Group.Finset

/-!
# The shared object budget

Every operation of a connection moves its own count, its live objects and the budget by the same
amount, so that the budget is the sum of the live objects over all connections. No subtraction
underflows, since what a table releases is live in it and counted in the sum.
-/

namespace CleanSlate.Graphics

open Lib Function

/-! ## Generational tables -/

theorem Slot.release_value {T : Type} (slot : Slot T) : slot.release.value = none := by
  unfold Slot.release
  cases nextGeneration slot.generation <;> rfl

namespace GenSlotTable

variable {T : Type} {N : Nat}

/-- The number of objects with a property. -/
def live (p : T → Bool) (self : GenSlotTable T N) : Nat :=
  Slots.count (fun slot => slot.value.any p) self.slots

theorem live_new (p : T → Bool) : (new : GenSlotTable T N).live p = 0 :=
  Slots.count_eq_zero.2 fun _ => rfl

theorem live_set (p : T → Bool) (self : GenSlotTable T N) (i : Fin N) (slot : Slot T) :
    (self.set i slot).live p + (if (self.slots i).value.any p then 1 else 0) =
      self.live p + if slot.value.any p then 1 else 0 :=
  Slots.count_update _ _ _ _

theorem insertFrom_cases (self : GenSlotTable T N) (value : T) (rest : List (Fin N)) :
    self.insertFrom value rest = (.error .exhausted, self) ∨
      ∃ id i slot, self.insertFrom value rest = (.ok id, self.set i slot) ∧
        (self.slots i).value = none ∧ slot.value = some value := by
  induction rest with
  | nil => exact .inl rfl
  | cons i rest ih =>
    unfold insertFrom
    dsimp only
    by_cases htk : ((self.slots i).retired || (self.slots i).value.isSome)
    · rw [if_pos htk]
      exact ih
    rw [if_neg htk]
    have hnn : (self.slots i).value = none := by
      simp only [Bool.or_eq_true, not_or, Bool.not_eq_true, Option.isSome_eq_false_iff,
        Option.isNone_iff_eq_none] at htk
      exact htk.2
    by_cases hin : UInt8.size ≤ i.val
    · rw [if_pos hin]
      exact .inl rfl
    rw [if_neg hin]
    cases ObjectId.new (UInt8.ofNat i)
        (if (self.slots i).generation = 0 then 1 else (self.slots i).generation) with
    | error _ => exact ih
    | ok id => exact .inr ⟨id, i, _, rfl, hnn, rfl⟩

/-- An insertion fails and changes nothing, or adds the value. -/
theorem insert_cases (self : GenSlotTable T N) (value : T) :
    self.insert value = (.error .exhausted, self) ∨
      ∃ id table, self.insert value = (.ok id, table) ∧
        ∀ p, table.live p = self.live p + if p value then 1 else 0 := by
  rcases self.insertFrom_cases value (List.finRange N) with h | ⟨id, i, slot, h, hnn, hvl⟩
  · exact .inl h
  · refine .inr ⟨id, _, h, fun p => ?_⟩
    have hlv := self.live_set p i slot
    rw [hnn, hvl] at hlv
    exact hlv

theorem lookup_ok {self : GenSlotTable T N} {id : ObjectId} {i : Fin N} {value : T}
    (h : self.lookup id = .ok (i, value)) : (self.slots i).value = some value := by
  simp only [lookup, bind_eq_ok, okOr_eq_ok, pure_eq_ok, Prod.mk.injEq] at h
  obtain ⟨j, -, -, -, v, hv, rfl, rfl⟩ := h
  exact hv

/-- A removal fails and changes nothing, or takes the value that `get` reads. -/
theorem remove_cases (self : GenSlotTable T N) (id : ObjectId) :
    (∃ e, self.remove id = (.error e, self)) ∨
      ∃ value table, self.remove id = (.ok value, table) ∧ self.get id = .ok value ∧
        ∀ p, table.live p + (if p value then 1 else 0) = self.live p := by
  unfold remove get
  cases hlk : self.lookup id with
  | error e => exact .inl ⟨e, rfl⟩
  | ok found =>
    obtain ⟨i, value⟩ := found
    refine .inr ⟨value, _, rfl, rfl, fun p => ?_⟩
    have hlv := self.live_set p i (self.slots i).release
    rw [lookup_ok hlk, Slot.release_value] at hlv
    exact hlv

theorem live_modify {self : GenSlotTable T N} {id : ObjectId} {value : T}
    (hget : self.get id = .ok value) {change : T → T} {p : T → Bool}
    (hp : p (change value) = p value) : (self.modify id change).2.live p = self.live p := by
  obtain ⟨⟨i, v⟩, hlk, rfl⟩ := map_eq_ok.1 hget
  unfold modify
  rw [hlk]
  have hlv := self.live_set p i { self.slots i with value := some (change v) }
  rw [lookup_ok hlk] at hlv
  simp only [Option.any_some, hp] at hlv hp
  exact Nat.add_right_cancel hlv

theorem clearInPlace_eq (self : GenSlotTable T N) : self.clearInPlace = new := by
  have h := Slots.foldl_induction (fun table i => table.set i .vacant)
    (fun k table => ∀ i, i.val < k → table.slots i = .vacant) self
    (fun i hi => absurd hi (Nat.not_lt_zero _)) (fun i table ih j hj => by
      rcases Nat.lt_succ_iff_lt_or_eq.1 hj with hlt | heq
      · exact (update_of_ne (Fin.ne_of_lt hlt) ..).trans (ih j hlt)
      · rw [Fin.ext heq]
        exact update_self ..)
  exact congrArg GenSlotTable.mk (funext fun i => h i i.isLt)

end GenSlotTable

/-! ## The table of one connection -/

namespace ObjectTable

variable {S W B : Type}

/-- The live objects of a kind. -/
def live (self : ObjectTable S W B) (kind : ObjectKind) : Nat :=
  self.table.live fun entry => entry.kind = kind

theorem live_new (kind : ObjectKind) : (new : ObjectTable S W B).live kind = 0 :=
  GenSlotTable.live_new _

theorem update_add_one (f : ObjectKind → Nat) (kind k : ObjectKind) :
    update f kind (f kind + 1) k = f k + if kind = k then 1 else 0 := by
  by_cases h : kind = k
  · subst h
    rw [update_self, if_pos rfl]
  · rw [update_of_ne (Ne.symm h), if_neg h, Nat.add_zero]

theorem update_sub_one (f : ObjectKind → Nat) (kind k : ObjectKind) :
    update f kind (f kind - 1) k = f k - if kind = k then 1 else 0 := by
  by_cases h : kind = k
  · subst h
    rw [update_self, if_pos rfl]
  · rw [update_of_ne (Ne.symm h), if_neg h, Nat.sub_zero]

/-- An insertion fails and changes nothing, or counts one object more. -/
theorem insert_cases (self : ObjectTable S W B) (budget : GlobalBudget) (entry : Entry S W B) :
    (∃ e, self.insert budget entry = (.error e, self, budget)) ∨
      ∃ id table' budget', self.insert budget entry = (.ok id, table', budget') ∧
        self.counts entry.kind < entry.kind.perClientLimit ∧
        budget.used entry.kind < entry.kind.globalLimit ∧
        ∀ kind, table'.counts kind = self.counts kind + (if entry.kind = kind then 1 else 0) ∧
          table'.live kind = self.live kind + (if entry.kind = kind then 1 else 0) ∧
          budget'.used kind = budget.used kind + if entry.kind = kind then 1 else 0 := by
  unfold insert
  by_cases hfl : self.counts entry.kind ≥ entry.kind.perClientLimit ∨
      budget.used entry.kind ≥ entry.kind.globalLimit
  · exact .inl ⟨_, if_pos hfl⟩
  simp only [if_neg hfl]
  rcases self.table.insert_cases entry with h | ⟨id, table, h, hlv⟩
  · rw [h]
    exact .inl ⟨_, rfl⟩
  rw [h]
  rw [not_or, Nat.not_le, Nat.not_le] at hfl
  refine .inr ⟨id, _, _, rfl, hfl.1, hfl.2, fun kind =>
    ⟨update_add_one self.counts entry.kind kind, ?_, update_add_one budget.used entry.kind kind⟩⟩
  simpa [live] using hlv fun e => decide (e.kind = kind)

/-- A removal fails and changes nothing, or counts one object less. -/
theorem remove_cases (self : ObjectTable S W B) (budget : GlobalBudget) (id : ObjectId)
    (kind : ObjectKind) :
    (∃ e, self.remove budget id kind = (.error e, self, budget)) ∨
      ∃ entry table' budget', self.remove budget id kind = (.ok entry, table', budget') ∧
        entry.kind = kind ∧
        ∀ k, table'.counts k = self.counts k - (if kind = k then 1 else 0) ∧
          table'.live k + (if kind = k then 1 else 0) = self.live k ∧
          budget'.used k = budget.used k - if kind = k then 1 else 0 := by
  unfold remove
  cases hkn : self.kindOf id with
  | error e => exact .inl ⟨e, rfl⟩
  | ok found =>
    dsimp only
    by_cases hne : found ≠ kind
    · exact .inl ⟨_, if_pos hne⟩
    rw [if_neg hne]
    rcases self.table.remove_cases id with ⟨e, h⟩ | ⟨entry, table, h, hget, hlv⟩
    · rw [h]
      exact .inl ⟨_, rfl⟩
    rw [h]
    -- the entry that is removed is the one whose kind was checked
    obtain ⟨entry', hen, rfl⟩ := map_eq_ok.1 hkn
    obtain rfl : entry' = entry := Except.ok.inj ((mapError_eq_ok.1 hen).symm.trans hget)
    have hsm : entry'.kind = kind := not_not.1 hne
    refine .inr ⟨entry', _, _, rfl, hsm, fun k =>
      ⟨update_sub_one self.counts kind k, ?_, update_sub_one budget.used kind k⟩⟩
    simpa [live, hsm] using hlv fun e => decide (e.kind = k)

variable {α : Type} {read : Entry S W B → Except ProtocolError α}

/-- A change through a mutable reference fails, or keeps the kinds of the live objects. -/
theorem modify_cases (self : ObjectTable S W B) (id : ObjectId) {write : α → Entry S W B}
    (hkn : ∀ entry value, read entry = .ok value → ∀ a, (write a).kind = entry.kind)
    (change : α → α) :
    (∃ e, self.modify id read write change = (.error e, self)) ∨
      ∃ table', self.modify id read write change = (.ok (), table') ∧
        table'.counts = self.counts ∧ ∀ kind, table'.live kind = self.live kind := by
  unfold modify
  cases hrd : self.entry id >>= read with
  | error e => exact .inl ⟨e, rfl⟩
  | ok value =>
    obtain ⟨entry, hen, hvl⟩ := bind_eq_ok.1 hrd
    refine .inr ⟨_, rfl, rfl, fun kind => GenSlotTable.live_modify (mapError_eq_ok.1 hen) ?_⟩
    rw [hkn entry value hvl]

/-- The budget after the loop of `close`. -/
theorem close_used (self : ObjectTable S W B) (budget : GlobalBudget) (kind : ObjectKind) :
    (self.close budget).2.used kind = budget.used kind - self.counts kind := by
  have hkn : ∀ b k, self.closeKind b k = releaseBudget b k (self.counts k) := by
    intro b k
    unfold closeKind
    by_cases hpos : self.counts k > 0
    · exact if_pos hpos
    · have hzr : self.counts k = 0 := Nat.eq_zero_of_not_pos hpos
      have hsm : b.set k (b.used k) = b := congrArg GlobalBudget.mk (update_eq_self k _)
      rw [hzr, releaseBudget, Nat.sub_zero, hsm]
      exact if_neg (Nat.lt_irrefl 0)
  cases kind <;> simp [close, hkn, releaseBudget, GlobalBudget.set, update_of_ne]

theorem close_table (self : ObjectTable S W B) (budget : GlobalBudget) :
    (self.close budget).1 = new := by
  unfold close new
  rw [GenSlotTable.clearInPlace_eq]

/-! ## What an operation does to the budget -/

/-- The table counts its live objects, and the budget includes them. -/
structure Within (table : ObjectTable S W B) (budget : GlobalBudget) : Prop where
  counts (kind : ObjectKind) : table.counts kind = table.live kind
  perClient (kind : ObjectKind) : table.live kind ≤ kind.perClientLimit
  held (kind : ObjectKind) : table.live kind ≤ budget.used kind
  limit (kind : ObjectKind) : budget.used kind ≤ kind.globalLimit

/-- An operation leads to a table within its budget, and moves the budget as the live objects. If it
is refused, nothing changes. -/
structure Settles (table : ObjectTable S W B) (budget : GlobalBudget) (refused : Prop)
    (after : ObjectTable S W B × GlobalBudget) : Prop where
  within : after.1.Within after.2
  balance (kind : ObjectKind) :
    after.2.used kind + table.live kind = budget.used kind + after.1.live kind
  unchanged : refused → after = (table, budget)

variable {table : ObjectTable S W B} {budget : GlobalBudget}

theorem Settles.mono {refused refused' : Prop} {after : ObjectTable S W B × GlobalBudget}
    (h : table.Settles budget refused after) (himp : refused' → refused) :
    table.Settles budget refused' after :=
  ⟨h.within, h.balance, fun href => h.unchanged (himp href)⟩

section

variable (h : table.Within budget)
include h

theorem Within.refused (refused : Prop) : table.Settles budget refused (table, budget) :=
  ⟨h, fun _ => rfl, fun _ => rfl⟩

theorem Within.insert (entry : Entry S W B) :
    table.Settles budget (∃ e, (table.insert budget entry).1 = .error e)
      (table.insert budget entry).2 := by
  rcases table.insert_cases budget entry with
    ⟨e, heq⟩ | ⟨id, table', budget', heq, hcl, hgl, hmv⟩
  · rw [heq]
    exact h.refused _
  rw [heq]
  rw [h.counts] at hcl
  refine ⟨⟨fun kind => ?_, fun kind => ?_, fun kind => ?_, fun kind => ?_⟩, fun kind => ?_,
    fun ⟨_, her⟩ => (by cases her)⟩ <;>
    obtain ⟨hcn, hlv, hus⟩ := hmv kind <;> dsimp only
  · rw [hcn, hlv, h.counts]
  · rw [hlv]
    split_ifs with hsm
    · exact hsm ▸ hcl
    · exact h.perClient kind
  · rw [hlv, hus]
    exact Nat.add_le_add_right (h.held kind) _
  · rw [hus]
    split_ifs with hsm
    · exact hsm ▸ hgl
    · exact h.limit kind
  · omega

theorem Within.remove (id : ObjectId) (kind : ObjectKind) :
    table.Settles budget (∃ e, (table.remove budget id kind).1 = .error e)
      (table.remove budget id kind).2 := by
  rcases table.remove_cases budget id kind with ⟨e, heq⟩ | ⟨entry, table', budget', heq, -, hmv⟩
  · rw [heq]
    exact h.refused _
  rw [heq]
  refine ⟨⟨fun k => ?_, fun k => ?_, fun k => ?_, fun k => ?_⟩, fun k => ?_,
    fun ⟨_, her⟩ => (by cases her)⟩ <;>
    obtain ⟨hcn, hlv, hus⟩ := hmv k <;> dsimp only
  · rw [hcn, h.counts]
    omega
  · have := h.perClient k
    omega
  · have := h.held k
    omega
  · have := h.limit k
    omega
  · have := h.held k
    omega

theorem Within.modify (id : ObjectId) {write : α → Entry S W B}
    (hkn : ∀ entry value, read entry = .ok value → ∀ a, (write a).kind = entry.kind)
    (change : α → α) :
    table.Settles budget (∃ e, (table.modify id read write change).1 = .error e)
      ((table.modify id read write change).2, budget) := by
  rcases table.modify_cases id hkn change with ⟨e, heq⟩ | ⟨table', heq, hcn, hlv⟩
  · rw [heq]
    exact h.refused _
  rw [heq]
  refine ⟨⟨fun k => ?_, fun k => ?_, fun k => ?_, h.limit⟩, fun k => ?_,
    fun ⟨_, her⟩ => (by cases her)⟩ <;> dsimp only <;> rw [hlv]
  · rw [hcn, h.counts]
  · exact h.perClient k
  · exact h.held k

theorem Within.close : table.Settles budget False (table.close budget) := by
  have hlv : ∀ kind, (table.close budget).1.live kind = 0 := fun kind => by
    rw [close_table, live_new]
  have hus : ∀ kind, (table.close budget).2.used kind + table.live kind = budget.used kind :=
    fun kind => by
      rw [close_used, h.counts]
      exact Nat.sub_add_cancel (h.held kind)
  refine ⟨⟨fun kind => (hlv kind).symm, fun kind => ?_, fun kind => ?_, fun kind => ?_⟩,
    fun kind => ?_, False.elim⟩
  · rw [hlv]
    exact Nat.zero_le _
  · rw [hlv]
    exact Nat.zero_le _
  · have := h.limit kind
    have := hus kind
    omega
  · rw [hus, hlv, Nat.add_zero]

end

theorem insert_refused {entry : Entry S W B} {f : ObjectId → α}
    (h : (err ((table.insert budget entry).1.map f)).isSome) :
    ∃ e, (table.insert budget entry).1 = .error e :=
  err_isSome.1 (by rwa [err_map] at h)

theorem remove_refused {id : ObjectId} {kind : ObjectKind}
    (hrd : ∀ entry, entry.kind = kind → ∃ value, read entry = .ok value)
    (h : (err ((table.remove budget id kind).1 >>= read)).isSome) :
    ∃ e, (table.remove budget id kind).1 = .error e := by
  rcases table.remove_cases budget id kind with ⟨e, heq⟩ | ⟨entry, _, _, heq, hkn, -⟩
  · exact ⟨e, by rw [heq]⟩
  obtain ⟨value, hvl⟩ := hrd entry hkn
  rw [heq] at h
  change (err (read entry)).isSome at h
  rw [hvl] at h
  cases h

theorem Within.apply (h : table.Within budget) (op : ObjectOp S W B) :
    table.Settles budget ((table.apply budget op).1.error.isSome) (table.apply budget op).2 := by
  cases op with
  | insertSurface value => exact (h.insert (.surface value)).mono insert_refused
  | insertWindow value => exact (h.insert (.window value)).mono insert_refused
  | insertBuffer value => exact (h.insert (.buffer value)).mono insert_refused
  | surfaceMut id change | windowMut id change | bufferMut id change =>
    refine (h.modify id.object (fun entry value hrd a => ?_) change).mono err_isSome.1
    cases entry <;> first | rfl | cases hrd
  | removeSurface id =>
    refine (h.remove id.object .surface).mono (remove_refused fun entry hkn => ?_)
    cases entry with
    | surface value => exact ⟨value, rfl⟩
    | window | buffer => cases hkn
  | removeWindow id =>
    refine (h.remove id.object .window).mono (remove_refused fun entry hkn => ?_)
    cases entry with
    | surface | buffer => cases hkn
    | window value => exact ⟨value, rfl⟩
  | removeBuffer id =>
    refine (h.remove id.object .buffer).mono (remove_refused fun entry hkn => ?_)
    cases entry with
    | surface | window => cases hkn
    | buffer value => exact ⟨value, rfl⟩
  | close => exact h.close.mono fun hnn => Bool.false_ne_true hnn

end ObjectTable

/-! ## All connections -/

namespace Connections

variable {κ S W B : Type}

/-- Every table counts its live objects, and the budget is their sum over `conns`. -/
structure Accounted (conns : Finset κ) (s : Connections κ S W B) : Prop where
  counts (c : κ) (kind : ObjectKind) : (s.tables c).counts kind = (s.tables c).live kind
  perClient (c : κ) (kind : ObjectKind) : (s.tables c).live kind ≤ kind.perClientLimit
  total (kind : ObjectKind) : s.budget.used kind = ∑ c ∈ conns, (s.tables c).live kind
  limit (kind : ObjectKind) : s.budget.used kind ≤ kind.globalLimit

variable {conns : Finset κ} {s : Connections κ S W B}

theorem accounted_new (conns : Finset κ) : Accounted conns (new : Connections κ S W B) where
  counts _ kind := (ObjectTable.live_new kind).symm
  perClient _ kind := (ObjectTable.live_new kind).trans_le (Nat.zero_le _)
  total kind := (Finset.sum_eq_zero fun _ _ => ObjectTable.live_new kind).symm
  limit _ := Nat.zero_le _

theorem Accounted.within (h : Accounted conns s) {c : κ} (hc : c ∈ conns) :
    (s.tables c).Within s.budget where
  counts := h.counts c
  perClient := h.perClient c
  held kind := by
    rw [h.total]
    exact Finset.single_le_sum (f := fun c => (s.tables c).live kind) (fun _ _ => Nat.zero_le _) hc
  limit := h.limit

variable [DecidableEq κ]

theorem Accounted.step (h : Accounted conns s) {op : κ × ObjectOp S W B} (hop : op.1 ∈ conns) :
    Accounted conns (s.step op).2 := by
  have hst := (h.within hop).apply op.2
  refine ⟨fun c kind => ?_, fun c kind => ?_, fun kind => ?_, hst.within.limit⟩
  · exact (forall_update_iff s.tables fun _ t => t.counts kind = t.live kind).2
      ⟨hst.within.counts kind, fun c _ => h.counts c kind⟩ c
  · exact (forall_update_iff s.tables fun _ t => t.live kind ≤ kind.perClientLimit).2
      ⟨hst.within.perClient kind, fun c _ => h.perClient c kind⟩ c
  · have hsum := Slots.sum_update hop (fun t => t.live kind) s.tables
      ((s.tables op.1).apply s.budget op.2).2.1
    have hbl := hst.balance kind
    have htt := h.total kind
    change ((s.tables op.1).apply s.budget op.2).2.2.used kind = ∑ c ∈ conns, (update
      s.tables op.1 ((s.tables op.1).apply s.budget op.2).2.1 c).live kind
    omega

theorem accounted_run {ops : List (κ × ObjectOp S W B)} (hops : ∀ op ∈ ops, op.1 ∈ conns) :
    Accounted conns (run step new ops) :=
  run_invariant_of_mem step (accounted_new conns) fun _ op hop h => h.step (hops op hop)

/-- The budget of every kind is the number of live objects of all connections, and within its
limit. What a connection counts is what is live in its table and is part of the budget, so no release
underflows. A refused operation changes nothing, every other one moves the budget as the live objects
of its connection, and a close returns all of them. -/
theorem budget_accounts (ops : List (κ × ObjectOp S W B)) :
    let s := run step (new : Connections κ S W B) ops
    (∀ conns : Finset κ, (∀ op ∈ ops, op.1 ∈ conns) →
      ∀ kind, s.budget.used kind = ∑ c ∈ conns, (s.tables c).live kind) ∧
    (∀ kind, s.budget.used kind ≤ kind.globalLimit) ∧
    (∀ c kind, (s.tables c).counts kind = (s.tables c).live kind ∧
      (s.tables c).live kind ≤ kind.perClientLimit ∧
      (s.tables c).live kind ≤ s.budget.used kind) ∧
    ∀ c op, let after := step s (c, op)
      (after.1.error.isSome = true → after.2 = s) ∧
      (∀ kind, after.2.budget.used kind + (s.tables c).live kind =
        s.budget.used kind + (after.2.tables c).live kind) ∧
      (op = .close → after.2.tables c = .new ∧
        ∀ kind, after.2.budget.used kind + (s.tables c).live kind = s.budget.used kind) := by
  intro s
  have hrun : ∀ conns, (∀ op ∈ ops, op.1 ∈ conns) → Accounted conns s :=
    fun _ hops => accounted_run hops
  -- any connection can be added to those that a run mentions
  have hwt : ∀ c, (s.tables c).Within s.budget := fun c =>
    (hrun (insert c (ops.map Prod.fst).toFinset) fun op hop =>
      Finset.mem_insert_of_mem (List.mem_toFinset.2 (List.mem_map_of_mem hop))).within
        (Finset.mem_insert_self _ _)
  refine ⟨fun conns hops => (hrun conns hops).total, ?_, fun c kind =>
    ⟨(hwt c).counts kind, (hwt c).perClient kind, (hwt c).held kind⟩, fun c op => ?_⟩
  · exact (hrun (ops.map Prod.fst).toFinset fun op hop =>
      List.mem_toFinset.2 (List.mem_map_of_mem hop)).limit
  · have hst := (hwt c).apply op
    have htb : (step s (c, op)).2.tables c = ((s.tables c).apply s.budget op).2.1 := update_self ..
    refine ⟨fun her => ?_, fun kind => ?_, ?_⟩
    · have hsm := hst.unchanged her
      change Connections.mk ((s.tables c).apply s.budget op).2.2
        (update s.tables c ((s.tables c).apply s.budget op).2.1) = s
      rw [hsm, update_eq_self]
    · rw [htb]
      exact hst.balance kind
    · rintro rfl
      rw [htb]
      refine ⟨ObjectTable.close_table _ _, fun kind => ?_⟩
      have hbl := hst.balance kind
      have hnew : ((s.tables c).apply s.budget .close).2.1 = .new := ObjectTable.close_table _ _
      rwa [hnew, ObjectTable.live_new, Nat.add_zero] at hbl

/-- Two clients, one of them with all the windows it may have. -/
def fiveWindows : List (Bool × ObjectOp Unit Unit Unit) :=
  (false, .insertWindow ()) :: List.replicate 4 (true, .insertWindow ())

/-- One more window is refused, and a close returns four of five. -/
theorem budget_accounts_five_windows :
    let s := run step (new : Connections Bool Unit Unit Unit) fiveWindows
    s.budget.used .window = ∑ c ∈ {true, false}, (s.tables c).live .window ∧
      (step s (true, .insertWindow ())).2 = s ∧
      (step s (true, .close)).2.budget.used .window + (s.tables true).live .window =
        s.budget.used .window :=
  have h := budget_accounts fiveWindows
  ⟨h.1 {true, false} (by decide) .window,
    (h.2.2.2 true (.insertWindow ())).1 rfl,
    ((h.2.2.2 true .close).2.2 rfl).2 .window⟩

end Connections

end CleanSlate.Graphics
