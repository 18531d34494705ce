import CleanSlate.Lib.Run
import CleanSlate.ServiceLifecycle.Readiness

/-!
# The health snapshot as a map

The unused entries of a snapshot have the id 0, and `set` looks for its id among them too. So a status
that is set for service 0 goes to an entry that `status` does not read, and is lost; all other
services have the status that was set last (`Holds`).
-/

namespace CleanSlate.ServiceLifecycle

open Lib Function Slots

variable {N : Nat}

namespace DependencyHealthSnapshot

abbrev SetEvent (N : Nat) :=
  Event (DependencyHealthSnapshot N) (ServiceId × HealthStatus) (Except DependencyGraphError Unit)

/-- The status that a call sets for a service. -/
def sets (s : ServiceId) (e : SetEvent N) : Option HealthStatus :=
  match e.output with
  | .ok () => if e.input.1 = s then some e.input.2 else none
  | .error _ => none

/-- The status that was set last for a service. -/
def lastSet (log : List (SetEvent N)) (s : ServiceId) : Option HealthStatus :=
  (log.filterMap (sets s)).getLast?

/-- The entries below the count are those of services other than 0, and the rest is unused. -/
structure Shaped (snap : DependencyHealthSnapshot N) : Prop where
  blank : ∀ i, snap.count ≤ i.val → (snap.entries i).1 = 0
  named : ∀ i, i.val < snap.count → (snap.entries i).1 ≠ 0

variable {snap snap' : DependencyHealthSnapshot N} {log : List (SetEvent N)} {service : ServiceId}
  {status : HealthStatus}

theorem lastSet_snoc (log : List (SetEvent N)) (e : SetEvent N) (s : ServiceId) :
    lastSet (log ++ [e]) s = (sets s e).or (lastSet log s) := by
  unfold lastSet
  rw [filterMap_snoc, List.getLast?_append]
  cases sets s e <;> rfl

/-- The slot that `set` finds for a service. -/
def slotOf (snap : DependencyHealthSnapshot N) (s : ServiceId) : Option (Fin N) :=
  Slots.position (fun entry => entry.1 = s) snap.entries

theorem Shaped.status_eq (h : snap.Shaped) (s : ServiceId) :
    snap.status s = if s = 0 then none else (snap.slotOf s).map fun i => (snap.entries i).2 := by
  unfold DependencyHealthSnapshot.status slotOf
  split
  · next hzr =>
    rw [Option.map_eq_none_iff, position_none]
    intro i
    by_cases hi : i.val < snap.count
    · simp [hzr, h.named i hi]
    · simp [hi]
  · next hs =>
    refine congrArg (Option.map _) (position_congr fun i => ?_)
    by_cases hi : i.val < snap.count
    · simp [hi]
    · simp [hi, h.blank i (Nat.le_of_not_lt hi), Ne.symm hs]

/-- What `set` does to the status of a service. -/
structure Sets (snap snap' : DependencyHealthSnapshot N) (service : ServiceId)
    (status : HealthStatus) : Prop where
  shaped : snap'.Shaped
  self : service ≠ 0 → snap'.status service = some status
  others : ∀ s ≠ service, snap'.status s = snap.status s

/-- `k` is the first slot of the service, or unused, and has no slot of the service before it. -/
theorem Shaped.write (h : snap.Shaped) (hsh : snap'.Shaped) {k : Fin N}
    (hsl : snap'.entries k = (service, status))
    (hot : ∀ i, i ≠ k → snap'.entries i = snap.entries i)
    (hold : (snap.entries k).1 = service ∨ (snap.entries k).1 = 0)
    (hfr : ∀ j < k, (snap.entries j).1 ≠ service) : Sets snap snap' service status := by
  refine ⟨hsh, fun hs => ?_, fun s hs => ?_⟩
  · obtain ⟨j, hj⟩ := position_isSome (f := snap'.entries) (i := k)
      (p := fun entry => entry.1 = service) (by simp [hsl])
    have hjk : j = k := by
      rcases lt_trichotomy j k with hlt | heq | hgt
      · have hid := position_some hj
        rw [hot j hlt.ne] at hid
        exact absurd (of_decide_eq_true hid) (hfr j hlt)
      · exact heq
      · have hms := position_first hj hgt
        simp [hsl] at hms
    rw [hsh.status_eq, if_neg hs, slotOf, hj, hjk, Option.map_some, hsl]
  · rw [hsh.status_eq, h.status_eq]
    split
    · rfl
    next hs0 =>
    have hk : (snap.entries k).1 ≠ s := by
      rcases hold with heq | heq <;> rw [heq]
      · exact Ne.symm hs
      · exact Ne.symm hs0
    have hst : snap'.slotOf s = snap.slotOf s := position_congr fun j => by
      by_cases hjk : j = k
      · simp [hjk, hsl, Ne.symm hs, hk]
      · rw [hot j hjk]
    rw [hst]
    cases hfn : snap.slotOf s with
    | none => rfl
    | some j =>
      have hj : (snap.entries j).1 = s := by simpa using position_some hfn
      rw [Option.map_some, Option.map_some, hot j (by rintro rfl; exact hk hj)]

theorem Shaped.set (h : snap.Shaped) (service : ServiceId) (status : HealthStatus) :
    snap.set service status = (.error .capacityExceeded, snap) ∨
      ∃ snap', snap.set service status = (.ok (), snap') ∧ Sets snap snap' service status := by
  unfold DependencyHealthSnapshot.set
  cases hfn : position (fun entry => entry.1 = service) snap.entries with
  | some index =>
    have hid : (snap.entries index).1 = service := by simpa using position_some hfn
    have hsm : ∀ j, (update snap.entries index ((snap.entries index).1, status) j).1 =
        (snap.entries j).1 := read_update rfl
    refine .inr ⟨_, rfl, h.write ⟨fun i hi => ?_, fun i hi => ?_⟩ ?_ ?_ (.inl hid) fun j hj => ?_⟩
    · exact (hsm i).trans (h.blank i hi)
    · exact (hsm i).trans_ne (h.named i hi)
    · exact (update_self ..).trans (by rw [hid])
    · exact fun i hi => update_of_ne hi _ _
    · simpa using position_first hfn hj
  | none =>
    have hnew : ∀ i, (snap.entries i).1 ≠ service := by simpa using position_none.1 hfn
    dsimp only
    split
    · next hrm =>
      have hbl := h.blank ⟨snap.count, hrm⟩ le_rfl
      have hzr : service ≠ 0 := fun heq => hnew _ (hbl.trans heq.symm)
      refine .inr ⟨_, rfl, h.write ⟨fun i hi => ?_, fun i hi => ?_⟩ (update_self ..)
        (fun i hi => update_of_ne hi _ _) (.inr hbl) fun j _ => hnew j⟩
      · have hne : i ≠ ⟨snap.count, hrm⟩ := by
          rintro rfl
          exact absurd hi (Nat.not_succ_le_self _)
        exact (congrArg Prod.fst (update_of_ne hne _ _)).trans (h.blank i (Nat.le_of_succ_le hi))
      · by_cases hls : i = ⟨snap.count, hrm⟩
        · change (update snap.entries _ _ i).1 ≠ 0
          rwa [hls, update_self]
        · have hlt := lt_of_le_of_ne (Nat.le_of_lt_succ hi) fun heq => hls (Fin.ext heq)
          exact (congrArg Prod.fst (update_of_ne hls _ _)).trans_ne (h.named i hlt)
    · exact .inl rfl

/-- A snapshot has the statuses that were set last, for all services but 0. -/
def Holds (log : List (SetEvent N)) (snap : DependencyHealthSnapshot N) : Prop :=
  snap.Shaped ∧ ∀ s, snap.status s = if s = 0 then none else lastSet log s

theorem Holds.step (h : Holds log snap) (call : ServiceId × HealthStatus) :
    Holds (log ++ [.of DependencyHealthSnapshot.step snap call]) (snap.step call).2 := by
  obtain ⟨hsh, hst⟩ := h
  unfold Holds
  simp only [lastSet_snoc, Event.of, sets, DependencyHealthSnapshot.step]
  rcases hsh.set call.1 call.2 with hset | ⟨snap', hset, hss⟩ <;> rw [hset]
  · exact ⟨hsh, hst⟩
  · refine ⟨hss.shaped, fun s => ?_⟩
    dsimp only
    split
    · next hs => rw [hss.shaped.status_eq, if_pos hs]
    next hs =>
    split
    · next heq =>
      rw [← heq, hss.self (heq.trans_ne hs)]
      rfl
    · next hne =>
      rw [hss.others s (Ne.symm hne), hst, if_neg hs]
      rfl

theorem run_holds (ops : List (ServiceId × HealthStatus)) :
    Holds (trace step (empty : DependencyHealthSnapshot N) ops) (run step empty ops) := by
  refine run_induction step ⟨⟨fun _ _ => rfl, fun _ h => absurd h (Nat.not_lt_zero _)⟩, fun s => ?_⟩
    (fun _ _ call h => h.step call) ops
  have hnn : (empty : DependencyHealthSnapshot N).status s = none := by
    simp [DependencyHealthSnapshot.status, position_none, empty]
  rw [hnn]
  split <;> rfl

end DependencyHealthSnapshot

open DependencyHealthSnapshot

variable {lifecycle : ServiceLifecycleTracker N} {service : ServiceId}

theorem edgeBlocksStart_none {edge : DependencyEdge} {record : ServiceLifecycleRecord}
    {snap : DependencyHealthSnapshot N} :
    edgeBlocksStart edge record (some snap) = none ↔
      lifecycleStateSatisfies record.state edge.requiredState ∧ record.state ≠ .exited ∧
        record.state ≠ .faulted ∧ snap.status edge.dependsOn ≠ some .unhealthy := by
  unfold edgeBlocksStart
  split
  · next hfl => rcases hfl with h | h <;> simp [h]
  split_ifs <;> simp_all

namespace GatedGraph

theorem checkEdges_ready {hel : Option (DependencyHealthSnapshot N)} {edges : List DependencyEdge} :
    checkEdges service lifecycle hel edges = .ok .ready ↔ ∀ edge ∈ edges,
      ∃ record, lifecycle.record edge.dependsOn = some record ∧
        edgeBlocksStart edge record hel = none := by
  induction edges with
  | nil => simp [checkEdges]
  | cons edge edges ih =>
    unfold checkEdges
    rw [List.forall_mem_cons, ← ih]
    cases lifecycle.record edge.dependsOn with
    | none => simp
    | some record => cases hbl : edgeBlocksStart edge record hel <;> simp [hbl]

/-- Every dependency is in a state that satisfies its edge, and was not last reported unhealthy. -/
def MayStart (g : GatedGraph N) (service : ServiceId) (lifecycle : ServiceLifecycleTracker N)
    (health : ServiceId → Option HealthStatus) : Prop :=
  ∃ edges, g.edges service = some edges ∧ ∀ edge ∈ edges,
    ∃ record, lifecycle.record edge.dependsOn = some record ∧
      lifecycleStateSatisfies record.state edge.requiredState ∧ record.state ≠ .exited ∧
        record.state ≠ .faulted ∧ health edge.dependsOn ≠ some .unhealthy

theorem evaluateStartReadiness_ready (g : GatedGraph N) (snap : DependencyHealthSnapshot N) :
    g.evaluateStartReadiness service lifecycle (some snap) = .ok .ready ↔
      g.MayStart service lifecycle snap.status := by
  unfold evaluateStartReadiness MayStart
  cases g.edges service with
  | none => simp
  | some edges => simp only [checkEdges_ready, edgeBlocksStart_none, Option.some.injEq,
      exists_eq_left']

end GatedGraph

/-- Every service has the status that was set for it last, and starts are decided by it, exactly if
none was set for service 0. -/
theorem health_exact_iff (ops : List (ServiceId × HealthStatus)) :
    ((∀ s, (run step (empty : DependencyHealthSnapshot N) ops).status s =
        lastSet (trace step (empty : DependencyHealthSnapshot N) ops) s) ∧
      ∀ (g : GatedGraph N) service lifecycle,
        g.evaluateStartReadiness service lifecycle (some (run step empty ops)) = .ok .ready ↔
          g.MayStart service lifecycle
            (lastSet (trace step (empty : DependencyHealthSnapshot N) ops))) ↔
      lastSet (trace step (empty : DependencyHealthSnapshot N) ops) 0 = none := by
  obtain ⟨-, hst⟩ := run_holds (N := N) ops
  constructor
  · rintro ⟨h, -⟩
    rw [← h, hst, if_pos rfl]
  · intro hzr
    have h : (run step (empty : DependencyHealthSnapshot N) ops).status =
        lastSet (trace step (empty : DependencyHealthSnapshot N) ops) := by
      funext s
      rw [hst]
      split
      · next hs => rw [hs, hzr]
      · rfl
    exact ⟨fun s => congrFun h s, fun g service lifecycle => h ▸ g.evaluateStartReadiness_ready _⟩

theorem health_exact_two_services :
    (run step (empty : DependencyHealthSnapshot 2) [(1, .unhealthy), (2, .ok), (1, .ok)]).status 1 =
      some .ok :=
  ((health_exact_iff [(1, .unhealthy), (2, .ok), (1, .ok)]).2 (by decide)).1 1

/-- Service 1 depends on service 0, which runs. -/
def sampleGraph : GatedGraph 2 :=
  ⟨⟨fun i => some ⟨i.val, fun _ => 0, i.val⟩⟩, fun _ _ => .running⟩

/-- Service 0 is reported unhealthy, has no status, and does not keep service 1 from starting. -/
theorem unhealthy_dependency_ignored :
    let snap := run step (empty : DependencyHealthSnapshot 2) [(0, .unhealthy)]
    lastSet (trace step (empty : DependencyHealthSnapshot 2) [(0, .unhealthy)]) 0 =
        some .unhealthy ∧
      snap.status 0 = none ∧
      sampleGraph.evaluateStartReadiness 1 ⟨fun _ => some ⟨0, .running, 1, none⟩⟩ (some snap) =
        .ok .ready :=
  ⟨by decide, by decide, rfl⟩

end CleanSlate.ServiceLifecycle
