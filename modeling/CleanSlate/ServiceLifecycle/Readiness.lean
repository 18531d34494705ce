import CleanSlate.ServiceLifecycle.State

/-!
# When a service may start

The health snapshot and `evaluate_start_readiness` of `service-lifecycle/src/dependency_graph.rs`, with
the lookup of `tracker.rs`.
-/

namespace CleanSlate.ServiceLifecycle

open Lib Function

inductive HealthStatus where
  | unknown | ok | degraded | unhealthy
deriving DecidableEq

structure DependencyHealthSnapshot (N : Nat) where
  entries : Fin N → ServiceId × HealthStatus
  count : Nat

namespace DependencyHealthSnapshot

variable {N : Nat}

def empty : DependencyHealthSnapshot N := ⟨fun _ => (0, .unknown), 0⟩

variable (self : DependencyHealthSnapshot N) (service : ServiceId)

def set (status : HealthStatus) : Except DependencyGraphError Unit × DependencyHealthSnapshot N :=
  match Slots.position (fun entry => entry.1 = service) self.entries with
  | some index => (.ok (), ⟨update self.entries index ((self.entries index).1, status), self.count⟩)
  | none =>
    if h : self.count < N then
      (.ok (), ⟨update self.entries ⟨self.count, h⟩ (service, status), self.count + 1⟩)
    else (.error .capacityExceeded, self)

/-- The first of the entries below the count that has the id. -/
def status : Option HealthStatus :=
  (Slots.position (fun i => i.val < self.count && (self.entries i).1 = service) id).map
    fun i => (self.entries i).2

def step (call : ServiceId × HealthStatus) :
    Except DependencyGraphError Unit × DependencyHealthSnapshot N :=
  self.set call.1 call.2

end DependencyHealthSnapshot

def lifecycleStateSatisfies (actual required : ServiceLifecycleState) : Bool :=
  match required with
  | .declared => true
  | .starting => actual = .starting || actual = .running || actual = .stopping
  | .running => actual = .running
  | .stopping => actual = .stopping || actual = .running
  | .exited | .faulted => false
  | .restartPending => actual = .restartPending || actual = .starting || actual = .running

inductive StartBlockReason where
  | dependencyNotReady (dependency : ServiceId) (observed required : ServiceLifecycleState)
  | dependencyFailed (dependency : ServiceId) (observed : ServiceLifecycleState)
  | dependencyUnhealthy (dependency : ServiceId) (observed : HealthStatus)
deriving DecidableEq

inductive StartReadiness where
  | ready
  | blocked (reason : StartBlockReason)
deriving DecidableEq

structure DependencyEdge where
  dependsOn : ServiceId
  requiredState : ServiceLifecycleState

structure ServiceLifecycleTracker (N : Nat) where
  records : Fin N → Option ServiceLifecycleRecord

variable {N : Nat}

def ServiceLifecycleTracker.record (self : ServiceLifecycleTracker N) (service : ServiceId) :
    Option ServiceLifecycleRecord :=
  (Slots.position (fun entry => entry.any (·.service = service)) self.records).bind self.records

def edgeBlocksStart (edge : DependencyEdge) (record : ServiceLifecycleRecord)
    (health : Option (DependencyHealthSnapshot N)) : Option StartBlockReason :=
  if record.state = .exited ∨ record.state = .faulted then
    some (.dependencyFailed edge.dependsOn record.state)
  else if !lifecycleStateSatisfies record.state edge.requiredState then
    some (.dependencyNotReady edge.dependsOn record.state edge.requiredState)
  else if health.bind (·.status edge.dependsOn) = some .unhealthy then
    some (.dependencyUnhealthy edge.dependsOn .unhealthy)
  else none

/-- The graph with the states that its edges require. -/
structure GatedGraph (N : Nat) extends DependencyGraph N where
  required : Fin N → Fin maxInlineDependencies → ServiceLifecycleState

namespace GatedGraph

variable (g : GatedGraph N) (service : ServiceId) (lifecycle : ServiceLifecycleTracker N)
  (health : Option (DependencyHealthSnapshot N))

/-- The edges of a declared service. -/
def edges : Option (List DependencyEdge) :=
  (g.findIndex service).bind fun i => (g.metadata i).map fun m =>
    (List.ofFn fun k => ⟨m.edges k, g.required i k⟩).take m.edgeCount

/-- The loop of `evaluate_start_readiness`. -/
def checkEdges (service : ServiceId) (lifecycle : ServiceLifecycleTracker N)
    (health : Option (DependencyHealthSnapshot N)) :
    List DependencyEdge → Except DependencyGraphError StartReadiness
  | [] => .ok .ready
  | edge :: edges =>
    match lifecycle.record edge.dependsOn with
    | none => .error (.unknownDependency service edge.dependsOn)
    | some record =>
      match edgeBlocksStart edge record health with
      | some reason => .ok (.blocked reason)
      | none => checkEdges service lifecycle health edges

def evaluateStartReadiness : Except DependencyGraphError StartReadiness :=
  match g.edges service with
  | none => .error .unknownService
  | some edges => checkEdges service lifecycle health edges

end GatedGraph

end CleanSlate.ServiceLifecycle
