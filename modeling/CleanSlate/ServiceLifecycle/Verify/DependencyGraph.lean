import Mathlib.Data.Finset.Option
import CleanSlate.Lib.Run
import CleanSlate.ServiceLifecycle.DependencyGraph

/-!
# Cycles in the dependency graph

New dependencies of a service close a cycle exactly if one of them leads back to the service. The
search for such a path gives up after `maxDependencyWalkDepth` edges, so a cycle through more services
than that is not found.
-/

namespace CleanSlate.ServiceLifecycle.DependencyGraph

open Lib Function Relation

variable {N : Nat} {g : DependencyGraph N} {i : Fin N} {m : DependencyMetadata} {a b s : ServiceId}

def Declared (g : DependencyGraph N) (s : ServiceId) : Prop :=
  ∃ i m, g.metadata i = some m ∧ m.service = s

def DependsOn (g : DependencyGraph N) (a b : ServiceId) : Prop :=
  ∃ i m, g.metadata i = some m ∧ m.service = a ∧ b ∈ m.dependencies

/-- What a call owes its caller. -/
def Lawful (e : Event (DependencyGraph N) GraphCall (Except DependencyGraphError Unit)) : Prop :=
  (∀ err, e.output = .error err → e.post = e.pre) ∧ Acyclic e.post.DependsOn ∧
    (∀ a b, e.post.DependsOn a b → e.post.Declared b) ∧
    ∀ m, e.input = .setDependencies m → (e.output = .error (.cycleDetected m.service) ↔
      ∃ i, e.pre.checkDependencies m = .ok i ∧ ¬Acyclic (e.pre.replace i m).DependsOn)

/-- The call closes a cycle that no walk within the bound goes round. -/
def ClosesLong (e : Event (DependencyGraph N) GraphCall (Except DependencyGraphError Unit)) : Prop :=
  ∃ m i, e.input = .setDependencies m ∧ e.pre.checkDependencies m = .ok i ∧
    ¬Acyclic (e.pre.replace i m).DependsOn ∧ ∀ d ∈ m.dependencies, ∀ n ≤ maxDependencyWalkDepth,
      ¬Walk (e.pre.replace i m).DependsOn n d m.service

structure Good (g : DependencyGraph N) : Prop where
  distinct : ∀ i j m m', g.metadata i = some m → g.metadata j = some m' →
    m.service = m'.service → i = j
  declared : ∀ a b, g.DependsOn a b → g.Declared b
  acyclic : Acyclic g.DependsOn

theorem findIndex_some (h : g.findIndex s = some i) :
    ∃ m, g.metadata i = some m ∧ m.service = s := by
  have hfn := Slots.position_some h
  rw [Option.any_eq_true] at hfn
  simpa using hfn

theorem findIndex_isSome : (g.findIndex s).isSome ↔ g.Declared s := by
  constructor
  · intro h
    obtain ⟨i, hi⟩ := Option.isSome_iff_exists.1 h
    exact ⟨i, findIndex_some hi⟩
  · rintro ⟨i, m, hm, rfl⟩
    obtain ⟨j, hj⟩ := Slots.position_isSome (f := g.metadata) (i := i)
      (p := fun entry => entry.any (·.service = m.service)) (by simp [hm])
    exact Option.isSome_iff_exists.2 ⟨j, hj⟩

theorem dependsOn_of_mem (h : b ∈ g.dependencies a) : g.DependsOn a b := by
  unfold dependencies at h
  cases hi : g.findIndex a with
  | none => simp [hi] at h
  | some i =>
    obtain ⟨m, hm, hsr⟩ := findIndex_some hi
    rw [hi, Option.bind_some, hm] at h
    exact ⟨i, m, hm, hsr, h⟩

/-- Every service has one entry, so the search sees the graph. -/
theorem dependsOn_iff (h : ∀ i j m m', g.metadata i = some m → g.metadata j = some m' →
    m.service = m'.service → i = j) (a b : ServiceId) : g.DependsOn a b ↔ b ∈ g.dependencies a := by
  refine ⟨?_, dependsOn_of_mem⟩
  rintro ⟨i, m, hm, rfl, hb⟩
  obtain ⟨j, hj⟩ := Option.isSome_iff_exists.1 (findIndex_isSome.2 ⟨i, m, hm, rfl⟩)
  obtain ⟨m', hm', hsr⟩ := findIndex_some hj
  obtain rfl := h i j m m' hm hm' hsr.symm
  unfold dependencies
  rw [hj, Option.bind_some, hm]
  exact hb

theorem checkDependencies_ok (h : g.checkDependencies m = .ok i) :
    g.findIndex m.service = some i ∧ ∀ d ∈ m.dependencies, g.Declared d := by
  simp only [checkDependencies, bind_eq_ok, okOr_eq_ok] at h
  obtain ⟨j, hj, -, -, h⟩ := h
  split at h
  · cases h
  next hfn =>
  cases h
  refine ⟨hj, fun d hd => findIndex_isSome.1 (Option.isSome_iff_ne_none.2 ?_)⟩
  simpa using List.find?_eq_none.1 hfn d hd

theorem checkDuplicates_ne_cycle {seen ds : List ServiceId} :
    checkDuplicates a seen ds ≠ .error (.cycleDetected s) := by
  induction ds generalizing seen with
  | nil => simp [checkDuplicates]
  | cons d ds ih =>
    unfold checkDuplicates
    split
    · simp
    · exact ih

theorem checkDependencies_ne_cycle : g.checkDependencies m ≠ .error (.cycleDetected s) := by
  intro h
  unfold checkDependencies okOr validateMetadataShape at h
  simp only [bind_eq_error] at h
  rcases h with h | ⟨i, -, h | ⟨-, -, h⟩⟩
  · split at h <;> cases h
  · split_ifs at h
    · cases h
    · cases h
    · exact checkDuplicates_ne_cycle h
  · split at h <;> cases h

section

variable (h : Good g) (hi : g.findIndex m.service = some i)
include h hi

theorem Good.entry_replace {j : Fin N} {m' : DependencyMetadata} :
    (g.replace i m).metadata j = some m' ↔
      j = i ∧ m' = m ∨ g.metadata j = some m' ∧ m'.service ≠ m.service := by
  obtain ⟨old, hold, hsr⟩ := findIndex_some hi
  dsimp only [replace]
  by_cases hj : j = i
  · grind
  · have := h.distinct j i m' old
    grind

theorem Good.dependsOn_replace : (g.replace i m).DependsOn a b ↔
    a = m.service ∧ b ∈ m.dependencies ∨ a ≠ m.service ∧ g.DependsOn a b := by
  simp only [DependsOn, h.entry_replace hi]
  constructor
  · rintro ⟨j, m', ⟨-, rfl⟩ | ⟨hm, hne⟩, rfl, hb⟩
    · exact .inl ⟨rfl, hb⟩
    · exact .inr ⟨hne, j, m', hm, rfl, hb⟩
  · rintro (⟨rfl, hb⟩ | ⟨hne, j, m', hm, rfl, hb⟩)
    · exact ⟨i, m, .inl ⟨rfl, rfl⟩, rfl, hb⟩
    · exact ⟨j, m', .inr ⟨hm, hne⟩, rfl, hb⟩

theorem Good.dependsOn_of_replace (hne : a ≠ m.service) (hb : (g.replace i m).DependsOn a b) :
    g.DependsOn a b :=
  (((h.dependsOn_replace hi).1 hb).resolve_left fun hs => hne hs.1).2

theorem Good.declared_replace : (g.replace i m).Declared s ↔ g.Declared s := by
  obtain ⟨old, hold, hsr⟩ := findIndex_some hi
  simp only [Declared, h.entry_replace hi]
  grind

theorem Good.distinct_replace : ∀ j k m₁ m₂, (g.replace i m).metadata j = some m₁ →
    (g.replace i m).metadata k = some m₂ → m₁.service = m₂.service → j = k := by
  intro j k m₁ m₂
  have := h.distinct j k m₁ m₂
  rw [h.entry_replace hi, h.entry_replace hi]
  grind

/-- The search finds the cycles within the bound. -/
theorem Good.detects_iff : (g.replace i m).detectCycleInvolving m.service ↔
    ∃ d ∈ m.dependencies, ∃ n ≤ maxDependencyWalkDepth,
      Walk (g.replace i m).DependsOn n d m.service := by
  have hss := dependsOn_iff (h.distinct_replace hi)
  simp only [detectCycleInvolving, List.any_eq_true, reaches_iff hss, ← hss,
    h.dependsOn_replace hi, true_and, ne_eq, not_true, false_and, or_false]

theorem Good.acyclic_replace : Acyclic (g.replace i m).DependsOn ↔
    ∀ d ∈ m.dependencies, ¬ReflTransGen (g.replace i m).DependsOn d m.service := by
  have hdp : ∀ d, (g.replace i m).DependsOn m.service d ↔ d ∈ m.dependencies := by
    simp [h.dependsOn_replace hi]
  rw [h.acyclic.iff_of_new_edges fun _ _ => h.dependsOn_of_replace hi]
  simp only [hdp]

end

theorem Good.declare (h : Good g) (s : ServiceId) : Good (g.declare s).2 := by
  unfold DependencyGraph.declare
  split
  · exact h
  next hnew =>
  split
  · exact h
  next slot hfr =>
  have hnn : g.metadata slot = none := by simpa using Slots.position_some hfr
  rw [findIndex_isSome] at hnew
  have hen : ∀ j m, update g.metadata slot (some (.empty s)) j = some m ↔
      j = slot ∧ m = .empty s ∨ g.metadata j = some m := by
    intro j m
    by_cases hj : j = slot
    · subst hj
      simp [hnn, eq_comm]
    · simp [hj]
  have hdp : ∀ a b, DependsOn ⟨update g.metadata slot (some (.empty s))⟩ a b ↔ g.DependsOn a b := by
    intro a b
    simp only [DependsOn, hen]
    refine exists_congr fun j => exists_congr fun m => and_congr_left fun ⟨_, hb⟩ => ?_
    refine or_iff_right ?_
    rintro ⟨-, rfl⟩
    cases hb
  refine ⟨?_, fun a b hb => ?_, ?_⟩
  · intro j k m m' hj hk hsr
    rw [hen] at hj hk
    rcases hj with ⟨rfl, rfl⟩ | hj <;> rcases hk with ⟨rfl, rfl⟩ | hk
    · rfl
    · exact absurd ⟨k, m', hk, hsr.symm⟩ hnew
    · exact absurd ⟨j, m, hj, hsr⟩ hnew
    · exact h.distinct j k m m' hj hk hsr
  · obtain ⟨j, m, hm, hsr⟩ := h.declared a b ((hdp a b).1 hb)
    exact ⟨j, m, (hen j m).2 (.inr hm), hsr⟩
  · rw [funext₂ fun a b => propext (hdp a b)]
    exact h.acyclic

/-- New dependencies are judged rightly unless they close a long cycle. -/
theorem Good.setDependencies (h : Good g) (m : DependencyMetadata) :
    (Lawful (.of step g (.setDependencies m)) ↔ ¬ClosesLong (.of step g (.setDependencies m))) ∧
      (¬ClosesLong (.of step g (.setDependencies m)) → Good (g.setDependencies m).2) := by
  simp only [Lawful, ClosesLong, Event.of, step, GraphCall.setDependencies.injEq, forall_eq',
    exists_and_left, exists_eq_left']
  cases hch : g.checkDependencies m with
  | error e =>
    have hout : g.setDependencies m = (.error e, g) := by
      unfold DependencyGraph.setDependencies
      rw [hch]
    have hne : e ≠ .cycleDetected m.service := fun he => checkDependencies_ne_cycle (he ▸ hch)
    simpa [hout, hne, h.acyclic, h] using h.declared
  | ok i =>
    obtain ⟨hi, hdp⟩ := checkDependencies_ok hch
    have hdt := h.detects_iff hi
    have hdc : ∀ a b, (g.replace i m).DependsOn a b → (g.replace i m).Declared b := by
      intro a b hb
      rw [h.declared_replace hi]
      rcases (h.dependsOn_replace hi).1 hb with ⟨-, hb⟩ | ⟨-, hb⟩
      exacts [hdp b hb, h.declared a b hb]
    by_cases hfn : (g.replace i m).detectCycleInvolving m.service
    · have hout : g.setDependencies m = (.error (.cycleDetected m.service), g) := by
        simp [DependencyGraph.setDependencies, hch, hfn]
      obtain ⟨d, hd, n, hn, hwl⟩ := hdt.1 hfn
      have hcy : ¬Acyclic (g.replace i m).DependsOn := fun hac =>
        (h.acyclic_replace hi).1 hac d hd hwl.reflTransGen
      have hnot : ¬∀ d ∈ m.dependencies, ∀ n ≤ maxDependencyWalkDepth,
        ¬Walk (g.replace i m).DependsOn n d m.service := fun hall => hall d hd n hn hwl
      simpa [hout, hcy, hnot, h.acyclic, h] using h.declared
    · have hout : g.setDependencies m = (.ok (), g.replace i m) := by
        simp [DependencyGraph.setDependencies, hch, hfn]
      have hall : ∀ d ∈ m.dependencies, ∀ n ≤ maxDependencyWalkDepth,
          ¬Walk (g.replace i m).DependsOn n d m.service :=
        fun d hd n hn hwl => hfn (hdt.2 ⟨d, hd, n, hn, hwl⟩)
      simp only [hout, Except.ok.injEq, exists_eq_left', reduceCtorEq, false_imp_iff, true_and,
        implies_true, false_iff, not_not, and_iff_left hall]
      exact ⟨⟨fun hlw => hlw.1, fun hac => ⟨hac, hdc, hac⟩⟩,
        fun hac => ⟨h.distinct_replace hi, hdc, hac⟩⟩

/-- What a call does to a good graph. -/
theorem Good.judged (h : Good g) (call : GraphCall) :
    (Lawful (.of step g call) ↔ ¬ClosesLong (.of step g call)) ∧
      (¬ClosesLong (.of step g call) → Good (step g call).2) := by
  rcases call with s | m
  · have hgd := h.declare s
    have hout : ∀ err, (g.declare s).1 = .error err → (g.declare s).2 = g := by
      unfold DependencyGraph.declare
      split
      · simp
      · split <;> simp
    have hlw : Lawful (.of step g (.declare s)) :=
      ⟨hout, hgd.acyclic, hgd.declared, fun m hm => by cases hm⟩
    have hsh : ¬ClosesLong (.of step g (.declare s)) := by
      rintro ⟨m, i, hm, -⟩
      cases hm
    exact ⟨iff_of_true hlw hsh, fun _ => hgd⟩
  · exact h.setDependencies m

/-- No cycle is longer than there are entries. -/
theorem Good.not_closesLong (h : Good g) (hN : N ≤ maxDependencyWalkDepth + 1) (call : GraphCall) :
    ¬ClosesLong (.of step g call) := by
  rintro ⟨m, i, -, hch, hcy, hln⟩
  obtain ⟨hi, hdp⟩ := checkDependencies_ok hch
  have hbk := mt (h.acyclic_replace hi).2 hcy
  push Not at hbk
  obtain ⟨d, hd, hpt⟩ := hbk
  obtain ⟨n, hnew, hwl⟩ := walk_of_new_edges (fun _ _ => h.dependsOn_of_replace hi) hpt
  refine hln d hd n ?_ hnew
  let S := (Finset.univ.image fun i => (g.metadata i).map (·.service)).eraseNone
  have hS : ∀ x, ReflTransGen g.DependsOn d x → x ∈ S := by
    intro x hx
    have hdc : g.Declared x := by
      rcases hx.cases_tail with rfl | ⟨c, -, hc⟩
      · exact hdp _ hd
      · exact h.declared c x hc
    simpa [S, Declared] using hdc
  have hlt := h.acyclic.walk_lt hS hwl
  have hle : S.card ≤ N := (Finset.card_eraseNone_le _).trans (Finset.card_image_le.trans (by simp))
  omega

/-- The graph of services stays as it should, and cycles are reported exactly, as long as no call
closes a cycle longer than the search looks for; with at most one service more than it has steps,
always. -/
theorem dependency_graph_lawful_iff (N : Nat) (calls : List GraphCall) :
    let log := trace step (new : DependencyGraph N) calls
    ((∀ e ∈ log, Lawful e) ↔ ∀ e ∈ log, ¬ClosesLong e) ∧
      (N ≤ maxDependencyWalkDepth + 1 → ∀ e ∈ log, Lawful e) := by
  intro log
  have hnew : Good (new : DependencyGraph N) := by
    refine ⟨by simp [new], by simp [new, DependsOn], fun a hcy => ?_⟩
    obtain ⟨c, ⟨i, m, hm, -⟩, -⟩ := TransGen.head'_iff.1 hcy
    cases hm
  refine ⟨forall_trace_iff step hnew (fun _ _ => trivial) fun _ call h _ => h.judged call,
    fun hN => (forall_trace_iff step (C := fun _ => True) hnew (fun _ _ => trivial) ?_).2
      fun _ _ => trivial⟩
  intro g call h _
  have hsh := h.not_closesLong hN call
  exact ⟨iff_true_intro ((h.judged call).1.2 hsh), fun _ => (h.judged call).2 hsh⟩

/-- Service `s` depends on the next of 34 services. -/
def nextOf (s : ServiceId) : DependencyMetadata := ⟨s, fun _ => (s + 1) % 34, 1⟩

/-- 34 services that depend on each other in a ring. -/
def ring : List GraphCall :=
  (List.range 34).map .declare ++ (List.range 34).map (.setDependencies ∘ nextOf)

/-- No call of the ring is refused. -/
theorem dependency_ring_accepted :
    (∀ e ∈ trace step (new : DependencyGraph 34) ring, e.output = .ok ()) ∧
      ¬Acyclic (run step (new : DependencyGraph 34) ring).DependsOn := by
  have hed : ∀ s < 34, (s + 1) % 34 ∈ (run step (new : DependencyGraph 34) ring).dependencies s := by
    decide +kernel
  refine ⟨by decide +kernel, fun h => h 0 (.tail' ?_ (dependsOn_of_mem (hed 33 (by decide))))⟩
  suffices hpt : ∀ n < 34, ReflTransGen (run step new ring).DependsOn 0 n from hpt 33 (by decide)
  intro n hn
  induction n with
  | zero => exact .refl
  | succ n ih =>
    have heg := dependsOn_of_mem (hed n (Nat.lt_of_succ_lt hn))
    rw [Nat.mod_eq_of_lt hn] at heg
    exact (ih (Nat.lt_of_succ_lt hn)).tail heg

end CleanSlate.ServiceLifecycle.DependencyGraph
