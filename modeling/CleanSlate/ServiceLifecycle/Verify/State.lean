import CleanSlate.Lib.Run
import CleanSlate.ServiceLifecycle.State

/-!
# Generations of a service

A record takes events of its current generation only, and once an instance of that generation went on
record, events of this instance only: as long as events are taken at all, the instance stays on record
(`Recorded`).
-/

namespace CleanSlate.ServiceLifecycle

open Lib

variable {state next : ServiceLifecycleState} {generation generation' : Nat}

/-- In these states events are taken. -/
def ServiceLifecycleState.Live : ServiceLifecycleState → Prop
  | .starting | .running | .stopping => True
  | _ => False

theorem control_ok {kind : ControlRequestKind} {i : Option ServiceInstanceId}
    (h : applyTransition state generation (.control kind) i = .ok (next, generation')) :
    generation' = generation + (if kind = .start then 1 else 0) ∧
      (next.Live → kind = .start ∨ state.Live ∧ kind ≠ .restart) := by
  unfold applyTransition applyControl at h
  cases state <;> cases kind <;> simp [bumpGeneration] at h
  all_goals
    obtain ⟨⟨-, rfl⟩, rfl⟩ := h
    simp [ServiceLifecycleState.Live]

theorem event_ok {kind : LifecycleEventKind} {i : ServiceInstanceId}
    (h : applyTransition state generation (.event kind) (some i) = .ok (next, generation')) :
    i.generation = generation ∧ generation' = generation ∧ state.Live ∧
      (next.Live → kind ≠ .exited ∧ kind ≠ .faulted) := by
  unfold applyTransition applyEvent at h
  rw [ite_error_eq_ok, not_not] at h
  obtain ⟨hcr, h⟩ := h
  refine ⟨hcr, ?_⟩
  cases state <;> cases kind <;> simp at h
  all_goals
    obtain ⟨rfl, rfl⟩ := h
    simp [ServiceLifecycleState.Live]

namespace ServiceLifecycleRecord

abbrev RecordEvent := Event ServiceLifecycleRecord RecordCall (Except TransitionError Unit)

/-- What a call does to a record. -/
inductive Moves (r : ServiceLifecycleRecord) :
    RecordCall → Except TransitionError Unit → ServiceLifecycleRecord → Prop
  | rejected {call : RecordCall} (error : TransitionError) : Moves r call (.error error) r
  | control {request : ControlRequest} {next : ServiceLifecycleState} {generation : Nat}
      (h : applyTransition r.state r.authoritativeGeneration (.control request.kind) none =
        .ok (next, generation)) :
      Moves r (.control request) (.ok ()) ⟨r.service, next, generation,
        if request.kind = .start ∨ request.kind = .restart then none else r.activeInstance⟩
  | event {event : LifecycleEvent} {next : ServiceLifecycleState} {generation : Nat}
      (active : ∀ i, r.activeInstance = some i → event.instanceId = i)
      (h : applyTransition r.state r.authoritativeGeneration (.event event.kind)
        (some event.instanceId) = .ok (next, generation)) :
      Moves r (.event event) (.ok ()) ⟨r.service, next, generation, r.instanceAfter event⟩

variable {r : ServiceLifecycleRecord} {log : List RecordEvent}

theorem step_moves (r : ServiceLifecycleRecord) (call : RecordCall) :
    r.Moves call (r.step call).1 (r.step call).2 := by
  cases call with
  | control request =>
    change r.Moves _ (r.applyControl request).1 (r.applyControl request).2
    unfold applyControl
    split
    · exact .rejected _
    split
    · exact .rejected _
    next h => exact .control h
  | event event =>
    change r.Moves _ (r.applyEvent event).1 (r.applyEvent event).2
    unfold applyEvent
    split
    · exact .rejected _
    split
    · exact .rejected _
    next hac =>
    split
    · exact .rejected _
    next h =>
    refine .event (fun i hi => ?_) h
    rw [Option.filter_eq_none_iff] at hac
    exact not_not.1 fun hne => hac i hi (decide_eq_true (Ne.symm hne))

/-- The call is a start, and is accepted. -/
def Starts (e : RecordEvent) : Prop :=
  ∃ request, e.input = .control request ∧ request.kind = .start ∧ e.output = .ok ()

/-- The instances that went on record. -/
def recorded (log : List RecordEvent) : List ServiceInstanceId := log.filterMap fun e =>
    match e.input, e.output with
    | .event ⟨i, .instanceSpawned⟩, .ok () => some i
    | _, _ => none

/-- What a call after a history owes the service. -/
structure Lawful (log : List RecordEvent) (e : RecordEvent) : Prop where
  start : Starts e → e.post.authoritativeGeneration = e.pre.authoritativeGeneration + 1
  other : ¬Starts e → e.post.authoritativeGeneration = e.pre.authoritativeGeneration
  current : ∀ event, e.input = .event event → e.output = .ok () →
    event.instanceId.generation = e.pre.authoritativeGeneration
  identity : ∀ event, e.input = .event event → e.output = .ok () →
    ∀ i, e.pre.activeInstance = some i ∨
      i ∈ recorded log ∧ i.generation = e.pre.authoritativeGeneration → event.instanceId = i
  rejected : ∀ error, e.output = .error error → e.post = e.pre
  older : ∀ event, e.input = .event event →
    event.instanceId.generation < e.pre.authoritativeGeneration → e.post = e.pre

/-- An instance that went on record stays on it until events are taken no more, or another generation
begins. -/
def Recorded (log : List RecordEvent) (r : ServiceLifecycleRecord) : Prop :=
  ∀ i ∈ recorded log, i.generation ≤ r.authoritativeGeneration ∧
    (i.generation = r.authoritativeGeneration → r.state.Live → r.activeInstance = some i)

theorem Recorded.step (h : Recorded log r) (call : RecordCall) :
    Recorded (log ++ [.of ServiceLifecycleRecord.step r call]) (r.step call).2 := by
  have hmv := step_moves r call
  intro i hi
  unfold recorded at hi
  rw [filterMap_snoc, List.mem_append, Option.mem_toList] at hi
  simp only [Event.of] at hi
  generalize r.step call = result at hmv hi ⊢
  obtain ⟨output, r'⟩ := result
  cases hmv with
  | rejected error =>
    rcases hi with hi | hi
    · exact h i hi
    · simp at hi
  | @control request next generation htr =>
    obtain ⟨hgn, hlv⟩ := control_ok htr
    rcases hi with hi | hi
    · obtain ⟨hle, hrc⟩ := h i hi
      refine ⟨by dsimp only; omega, fun heq hnx => ?_⟩
      dsimp only at heq
      rcases hlv hnx with hst | ⟨hsa, hrs⟩
      · rw [if_pos hst] at hgn
        omega
      · have hst : request.kind ≠ .start := fun hst => by
          rw [if_pos hst] at hgn
          omega
        rw [if_neg hst] at hgn
        rw [if_neg (by simp [hst, hrs])]
        exact hrc (heq.trans hgn) hsa
    · simp at hi
  | @event event next generation hac htr =>
    obtain ⟨hcr, rfl, hsa, hnx⟩ := event_ok htr
    rcases hi with hi | hi
    · obtain ⟨hle, hrc⟩ := h i hi
      refine ⟨hle, fun heq hlv => ?_⟩
      have hon := hrc heq hsa
      dsimp only [instanceAfter]
      split
      · exact congrArg some (hac i hon)
      · next hkn => exact absurd hkn (hnx hlv).1
      · next hkn => exact absurd hkn (hnx hlv).2
      · exact hon
    · obtain ⟨j, kind⟩ := event
      cases kind with
      | instanceSpawned =>
        obtain rfl := Option.some.inj hi
        exact ⟨hcr.le, fun _ _ => rfl⟩
      | _ => cases hi

theorem lifecycle_lawful (service : ServiceId) (before : List RecordCall) (call : RecordCall) :
    Lawful (trace step (declared service) before)
      (.of step (run step (declared service) before) call) := by
  have hrc : Recorded (trace step (declared service) before) (run step (declared service) before) :=
    run_induction step (P := Recorded) nofun (fun _ _ call h => h.step call) before
  generalize run step (declared service) before = r at hrc ⊢
  generalize trace step (declared service) before = log at hrc ⊢
  have hmv := step_moves r call
  unfold Event.of
  generalize r.step call = result at hmv ⊢
  obtain ⟨output, r'⟩ := result
  cases hmv with
  | rejected error =>
    exact ⟨fun ⟨_, _, _, h⟩ => (by cases h), fun _ => rfl, nofun, nofun, fun _ _ => rfl,
      fun _ _ _ => rfl⟩
  | control h =>
    obtain ⟨hgn, -⟩ := control_ok h
    refine ⟨?_, fun hot => ?_, nofun, nofun, nofun, nofun⟩
    · rintro ⟨_, ⟨⟩, hst, -⟩
      rwa [if_pos hst] at hgn
    · rwa [if_neg fun hst => hot ⟨_, rfl, hst, rfl⟩] at hgn
  | event active h =>
    obtain ⟨hcr, rfl, hlv, -⟩ := event_ok h
    refine ⟨fun ⟨_, h, _⟩ => (by cases h), fun _ => rfl, ?_, ?_, nofun, ?_⟩
    · rintro _ ⟨⟩ -
      exact hcr
    · rintro _ ⟨⟩ - i (hi | ⟨hi, hgn⟩)
      · exact active i hi
      · exact active i ((hrc i hi).2 hgn hlv)
    · rintro _ ⟨⟩ hlt
      exact absurd hcr hlt.ne

end ServiceLifecycleRecord

end CleanSlate.ServiceLifecycle
