import CleanSlate.Lib.Checks
import CleanSlate.Lib.Slots
import CleanSlate.Lib.Walk

/-!
# Dependencies of services

`service-lifecycle/src/dependency_graph.rs`. The state an edge requires of its service, which only the
start of a service reads, is left out.
-/

namespace CleanSlate.ServiceLifecycle

open Lib Function

abbrev ServiceId := Nat

def maxInlineDependencies : Nat := 4
def maxDependencyWalkDepth : Nat := 32

structure DependencyMetadata where
  service : ServiceId
  edges : Fin maxInlineDependencies → ServiceId
  edgeCount : Nat

namespace DependencyMetadata

def empty (service : ServiceId) : DependencyMetadata := ⟨service, fun _ => 0, 0⟩

/-- `metadata_edges`. -/
def dependencies (m : DependencyMetadata) : List ServiceId := (List.ofFn m.edges).take m.edgeCount

end DependencyMetadata

inductive DependencyGraphError where
  | unknownService
  | duplicateService
  | capacityExceeded
  | unknownDependency (service dependsOn : ServiceId)
  | selfDependency (service : ServiceId)
  | duplicateDependencyEdge (service dependsOn : ServiceId)
  | cycleDetected (service : ServiceId)
  | edgeCapacityExceeded (service : ServiceId)
deriving DecidableEq

/-- The loop of `validate_metadata_shape` over the edges, with those it has `seen`. -/
def checkDuplicates (service : ServiceId) :
    List ServiceId → List ServiceId → Except DependencyGraphError Unit
  | _, [] => .ok ()
  | seen, d :: ds =>
    if d ∈ seen then .error (.duplicateDependencyEdge service d)
    else checkDuplicates service (seen ++ [d]) ds

def validateMetadataShape (m : DependencyMetadata) : Except DependencyGraphError Unit :=
  if maxInlineDependencies < m.edgeCount then .error (.edgeCapacityExceeded m.service)
  else if m.service ∈ m.dependencies then .error (.selfDependency m.service)
  else checkDuplicates m.service [] m.dependencies

structure DependencyGraph (N : Nat) where
  metadata : Fin N → Option DependencyMetadata

namespace DependencyGraph

variable {N : Nat}

def new : DependencyGraph N := ⟨fun _ => none⟩

variable (g : DependencyGraph N) (service : ServiceId)

def findIndex : Option (Fin N) :=
  Slots.position (fun entry => entry.any (·.service = service)) g.metadata

/-- `find_metadata`, and the edges of what it finds. -/
def dependencies (g : DependencyGraph N) (service : ServiceId) : List ServiceId :=
  match (g.findIndex service).bind g.metadata with
  | none => []
  | some m => m.dependencies

/-- `dependency_path_reaches` is the search of bounded depth. -/
def detectCycleInvolving : Bool :=
  (g.dependencies service).any (reaches g.dependencies service maxDependencyWalkDepth)

def declare : Except DependencyGraphError Unit × DependencyGraph N :=
  if (g.findIndex service).isSome then (.error .duplicateService, g)
  else
    match Slots.position Option.isNone g.metadata with
    | none => (.error .capacityExceeded, g)
    | some slot => (.ok (), ⟨update g.metadata slot (some (.empty service))⟩)

/-- What `set_dependencies` checks before it looks for a cycle. -/
def checkDependencies (m : DependencyMetadata) : Except DependencyGraphError (Fin N) := do
  let index ← okOr (g.findIndex m.service) .unknownService
  validateMetadataShape m
  match m.dependencies.find? fun d => (g.findIndex d).isNone with
  | some d => .error (.unknownDependency m.service d)
  | none => .ok index

/-- The graph once the service at `i` has the dependencies `m`. -/
def replace (i : Fin N) (m : DependencyMetadata) : DependencyGraph N :=
  ⟨update g.metadata i (some m)⟩

def setDependencies (m : DependencyMetadata) :
    Except DependencyGraphError Unit × DependencyGraph N :=
  match g.checkDependencies m with
  | .error e => (.error e, g)
  | .ok index =>
    if (g.replace index m).detectCycleInvolving m.service then
      (.error (.cycleDetected m.service), g)
    else (.ok (), g.replace index m)

end DependencyGraph

inductive GraphCall where
  | declare (service : ServiceId)
  | setDependencies (m : DependencyMetadata)

def DependencyGraph.step {N : Nat} (g : DependencyGraph N) :
    GraphCall → Except DependencyGraphError Unit × DependencyGraph N
  | .declare service => g.declare service
  | .setDependencies m => g.setDependencies m

end CleanSlate.ServiceLifecycle
