import CleanSlate.ServiceLifecycle.DependencyGraph

/-!
# Lifecycle records

Instances of services, their events, the transition rules and the record of a service, after
`service-lifecycle/src/identity.rs`, `state.rs` and `tracker.rs`. The status code of an event, which no
transition reads, is left out.
-/

namespace CleanSlate.ServiceLifecycle

/-- A process that runs a service. -/
structure ServiceInstanceId where
  service : ServiceId
  generation : Nat
  pid : Nat
  domain : Nat
deriving DecidableEq

inductive ServiceLifecycleState where
  | declared | starting | running | stopping | exited | faulted | restartPending
deriving DecidableEq

inductive LifecycleEventKind where
  | instanceSpawned | started | ready | stopAcknowledged | exited | faulted
deriving DecidableEq

structure LifecycleEvent where
  instanceId : ServiceInstanceId
  kind : LifecycleEventKind

inductive ControlRequestKind where
  | start | stop | terminate | restart
deriving DecidableEq

structure ControlRequest where
  service : ServiceId
  kind : ControlRequestKind

inductive TransitionInput where
  | control (kind : ControlRequestKind)
  | event (kind : LifecycleEventKind)
deriving DecidableEq

inductive TransitionError where
  | invalidTransition (state : ServiceLifecycleState) (input : TransitionInput)
  | staleInstance (observed authoritative : Nat)
  | activeInstanceMismatch (expected observed : ServiceInstanceId)
  | generationExhausted (current : Nat)
  | instanceMismatch
deriving DecidableEq

def bumpGeneration (generation : Nat) : Except TransitionError Nat :=
  if generation = 2 ^ 32 - 1 then .error (.generationExhausted generation) else .ok (generation + 1)

def applyControl (state : ServiceLifecycleState) (generation : Nat) (kind : ControlRequestKind) :
    Except TransitionError (ServiceLifecycleState × Nat) :=
  match state, kind with
  | .declared, .start | .exited, .start | .faulted, .start | .restartPending, .start =>
    (bumpGeneration generation).map fun generation => (.starting, generation)
  | .running, .stop | .running, .terminate | .starting, .terminate => .ok (.stopping, generation)
  | .faulted, .restart | .exited, .restart | .running, .restart => .ok (.restartPending, generation)
  | _, _ => .error (.invalidTransition state (.control kind))

def applyEvent (state : ServiceLifecycleState) (authoritative : Nat)
    (instanceId : ServiceInstanceId) (kind : LifecycleEventKind) :
    Except TransitionError (ServiceLifecycleState × Nat) :=
  if instanceId.generation ≠ authoritative then
    .error (.staleInstance instanceId.generation authoritative)
  else match state, kind with
    | .starting, .instanceSpawned | .starting, .started => .ok (.starting, authoritative)
    | .starting, .ready => .ok (.running, authoritative)
    | .starting, .faulted | .running, .faulted => .ok (.faulted, authoritative)
    | .starting, .exited | .running, .exited | .stopping, .exited => .ok (.exited, authoritative)
    | .stopping, .stopAcknowledged => .ok (.stopping, authoritative)
    | _, _ => .error (.invalidTransition state (.event kind))

def applyTransition (state : ServiceLifecycleState) (authoritative : Nat) (input : TransitionInput)
    (eventInstance : Option ServiceInstanceId) :
    Except TransitionError (ServiceLifecycleState × Nat) :=
  match input, eventInstance with
  | .control kind, _ => applyControl state authoritative kind
  | .event _, none => .error .instanceMismatch
  | .event kind, some instanceId => applyEvent state authoritative instanceId kind

structure ServiceLifecycleRecord where
  service : ServiceId
  state : ServiceLifecycleState
  authoritativeGeneration : Nat
  activeInstance : Option ServiceInstanceId
deriving DecidableEq

/-- A call on a record. -/
inductive RecordCall where
  | control (request : ControlRequest)
  | event (event : LifecycleEvent)

namespace ServiceLifecycleRecord

def declared (service : ServiceId) : ServiceLifecycleRecord := ⟨service, .declared, 0, none⟩

variable (self : ServiceLifecycleRecord)

def applyControl (request : ControlRequest) : Except TransitionError Unit × ServiceLifecycleRecord :=
  if request.service ≠ self.service then (.error .instanceMismatch, self)
  else match applyTransition self.state self.authoritativeGeneration (.control request.kind) none with
    | .error e => (.error e, self)
    | .ok (next, generation) =>
      (.ok (), ⟨self.service, next, generation,
        if request.kind = .start ∨ request.kind = .restart then none else self.activeInstance⟩)

/-- The instance on record after an event. -/
def instanceAfter (event : LifecycleEvent) : Option ServiceInstanceId :=
  match event.kind with
  | .instanceSpawned => some event.instanceId
  | .exited | .faulted => none
  | _ => self.activeInstance

def applyEvent (event : LifecycleEvent) : Except TransitionError Unit × ServiceLifecycleRecord :=
  if event.instanceId.service ≠ self.service then (.error .instanceMismatch, self)
  else match self.activeInstance.filter (· ≠ event.instanceId) with
    | some active => (.error (.activeInstanceMismatch active event.instanceId), self)
    | none =>
      match applyTransition self.state self.authoritativeGeneration (.event event.kind)
          (some event.instanceId) with
      | .error e => (.error e, self)
      | .ok (next, generation) =>
        (.ok (), ⟨self.service, next, generation, self.instanceAfter event⟩)

def step : RecordCall → Except TransitionError Unit × ServiceLifecycleRecord
  | .control request => self.applyControl request
  | .event event => self.applyEvent event

end ServiceLifecycleRecord

end CleanSlate.ServiceLifecycle
